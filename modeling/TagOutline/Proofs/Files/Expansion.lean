import TagOutline.Proofs.Files.Normal
import TagOutline.Proofs.Files.Tree

/-!
# The files that patterns match

Patterns are expanded one after another, and a file that is there already is passed over. So the
files stand in the order of the first pattern that matches them, and those of one pattern in the
order of the paths that it matches, whatever else is matched. A pattern that matches nothing is told
about, and no pattern has an influence on what is told about another.
-/

namespace TagOutline.Glob

variable {w : Workspace} {patterns ps qs : List String} {file other : String}

/-! Appending what is new. -/

theorem appendNew_append (seen ps qs : List String) :
    appendNew seen (ps ++ qs) = appendNew (appendNew seen ps) qs := by
  induction ps generalizing seen with
  | nil => rfl
  | cons p ps ih =>
    rw [List.cons_append, appendNew, appendNew]
    split
    · exact ih seen
    · exact ih (seen ++ [p])

/-- What is appended is what would be there alone, without what is there already. -/
theorem appendNew_eq (seen ps : List String) :
    appendNew seen ps = seen ++ (appendNew [] ps).filter (· ∉ seen) := by
  induction ps generalizing seen with
  | nil => simp [appendNew]
  | cons p ps ih =>
    have alone : appendNew [] (p :: ps) = p :: (appendNew [] ps).filter (· ≠ p) := by
      rw [appendNew, if_neg (by simp), List.nil_append, ih [p]]
      simp
    rw [alone, appendNew]
    split
    next known =>
      -- the first path is left out with all that is there already
      have member : p ∈ seen := by simpa using known
      have others : ∀ q, (decide (q ∉ seen) && decide (q ≠ p)) = decide (q ∉ seen) := by
        intro q
        by_cases same : q = p
        · simp [same, member]
        · simp [same]
      rw [ih seen, List.filter_cons_of_neg (by simp [member]), List.filter_filter]
      simp only [others]
    next fresh =>
      have absent : p ∉ seen := by simpa using fresh
      have others : ∀ q, (decide (q ∉ seen) && decide (q ≠ p)) = decide (q ∉ seen ++ [p]) := by
        intro q
        simp
      rw [ih (seen ++ [p]), List.filter_cons_of_pos (by simp [absent]), List.filter_filter,
        List.append_assoc, List.singleton_append]
      simp only [others]

theorem mem_appendNew {seen ps : List String} {p : String} :
    p ∈ appendNew seen ps ↔ p ∈ seen ∨ p ∈ ps := by
  induction ps generalizing seen with
  | nil => simp [appendNew]
  | cons q ps ih =>
    rw [appendNew]
    split
    next known =>
      have member : q ∈ seen := by simpa using known
      rw [ih, List.mem_cons]
      constructor
      · rintro (h | h)
        · exact Or.inl h
        · exact Or.inr (Or.inr h)
      · rintro (h | rfl | h)
        · exact Or.inl h
        · exact Or.inl member
        · exact Or.inr h
    next fresh =>
      rw [ih, List.mem_append, List.mem_singleton, List.mem_cons, or_assoc]

/-- Of two paths, the one that stands first is there before the other comes for the first time. -/
theorem pairwise_appendNew (ps : List String) :
    (appendNew [] ps).Pairwise fun p q => ∃ before behind, ps = before ++ behind ∧
      p ∈ before ∧ q ∉ before := by
  induction ps using List.reverseRecOn with
  | nil => exact List.Pairwise.nil
  | append_singleton ps x ih =>
    have kept : (appendNew [] ps).Pairwise fun p q => ∃ before behind,
        ps ++ [x] = before ++ behind ∧ p ∈ before ∧ q ∉ before := by
      apply ih.imp
      rintro p q ⟨before, behind, rfl, hp, hq⟩
      exact ⟨before, behind ++ [x], by simp, hp, hq⟩
    rw [appendNew_append, appendNew]
    split
    · exact kept
    next fresh =>
      have absent : x ∉ appendNew [] ps := by simpa using fresh
      rw [mem_appendNew] at absent
      rw [appendNew, List.pairwise_append]
      refine ⟨kept, List.pairwise_singleton _ _, ?_⟩
      intro p hp q hq
      have inside : p ∈ ps := (mem_appendNew.mp hp).resolve_left List.not_mem_nil
      obtain rfl := List.mem_singleton.mp hq
      exact ⟨ps, [q], rfl, inside, fun h => absent (Or.inr h)⟩

/-! Expanding patterns. -/

theorem files_of_unmatched {pattern : String} (h : (paths w pattern).isEmpty = true) :
    files w pattern = [] := by
  rw [files, sortedPaths, List.isEmpty_iff.mp h, List.mergeSort_nil]
  rfl

theorem expandFrom_notices (seen patterns : List String) :
    (expandFrom w seen patterns).1 =
      (patterns.filter fun p => (paths w p).isEmpty).map .patternUnmatched := by
  induction patterns generalizing seen with
  | nil => rfl
  | cons pattern patterns ih =>
    rw [expandFrom]
    split
    next unmatched =>
      simp only [List.filter_cons, if_pos unmatched, List.map_cons]
      exact congrArg _ (ih seen)
    next matched =>
      simp only [List.filter_cons, if_neg matched]
      exact ih _

theorem expandFrom_files (seen patterns : List String) :
    (expandFrom w seen patterns).2 = appendNew seen (patterns.flatMap (files w)) := by
  induction patterns generalizing seen with
  | nil => rfl
  | cons pattern patterns ih =>
    rw [expandFrom, List.flatMap_cons]
    split
    next unmatched => rw [files_of_unmatched unmatched, List.nil_append, ← ih]
    next matched => rw [appendNew_append, ih]

/-- The files of some patterns and then those of others: the others add what is new. -/
theorem expand_append_files (ps qs : List String) :
    (expand w (ps ++ qs)).2 =
      (expand w ps).2 ++ (expand w qs).2.filter (· ∉ (expand w ps).2) := by
  simp only [expand, expandFrom_files, List.flatMap_append, appendNew_append]
  exact appendNew_eq _ _

theorem expand_append_notices (ps qs : List String) :
    (expand w (ps ++ qs)).1 = (expand w ps).1 ++ (expand w qs).1 := by
  simp only [expand, expandFrom_notices, List.filter_append, List.map_append]

/-! The place of a file. -/

/-- A pattern matches a path to a file, and normalised the path is `file`. -/
structure Spells (w : Workspace) (pattern file path : String) : Prop where
  matched : path ∈ paths w pattern
  isFile : w.isFile path = true
  normalized : Path.normalized path = file

/-- The first pattern that matches a file stands at `index`, and `path` is the least of the paths
under which it matches the file. -/
structure IsFoundAt (w : Workspace) (patterns : List String) (file : String) (index : Nat)
    (path : String) : Prop where
  first : ∃ pattern, patterns[index]? = some pattern ∧ Spells w pattern file path ∧
    ∀ other, Spells w pattern file other → path ≤ other
  fresh : ∀ pattern ∈ patterns.take index, ∀ other, ¬ Spells w pattern file other

/-- A file is found by an earlier pattern than another one, or by the same pattern under a lesser
path. -/
def ComesBefore (w : Workspace) (patterns : List String) (file other : String) : Prop :=
  ∃ i path j path', IsFoundAt w patterns file i path ∧ IsFoundAt w patterns other j path' ∧
    (i < j ∨ i = j ∧ path < path')

theorem mem_sortedPaths {pattern path : String} :
    path ∈ sortedPaths w pattern ↔ path ∈ paths w pattern := by
  rw [sortedPaths, List.mem_mergeSort]

theorem pairwise_sortedPaths (w : Workspace) (pattern : String) :
    (sortedPaths w pattern).Pairwise (· ≤ ·) := by
  have trans (a b c : String) (hab : decide (a ≤ b) = true) (hbc : decide (b ≤ c) = true) :
      decide (a ≤ c) = true :=
    decide_eq_true (String.le_trans (of_decide_eq_true hab) (of_decide_eq_true hbc))
  have total (a b : String) : (decide (a ≤ b) || decide (b ≤ a)) = true := by
    simpa using String.le_total a b
  have sorted := List.pairwise_mergeSort trans total (paths w pattern)
  exact sorted.imp fun h => of_decide_eq_true h

theorem mem_files_iff {pattern : String} :
    file ∈ files w pattern ↔ ∃ path, Spells w pattern file path := by
  rw [files, List.mem_map]
  constructor
  · rintro ⟨path, hpath, rfl⟩
    obtain ⟨sorted, isFile⟩ := List.mem_filter.mp hpath
    exact ⟨path, mem_sortedPaths.mp sorted, isFile, rfl⟩
  · rintro ⟨path, h⟩
    exact ⟨path, List.mem_filter.mpr ⟨mem_sortedPaths.mpr h.matched, h.isFile⟩, h.normalized⟩

theorem mem_expand_iff :
    file ∈ (expand w patterns).2 ↔ ∃ pattern ∈ patterns, ∃ path, Spells w pattern file path := by
  simp only [expand, expandFrom_files, mem_appendNew, List.not_mem_nil, false_or, List.mem_flatMap,
    mem_files_iff]

/-- Among the paths to a file that a pattern matches there is a least one. -/
theorem exists_least {pattern : String} (h : ∃ path, Spells w pattern file path) :
    ∃ path, Spells w pattern file path ∧ ∀ other, Spells w pattern file other → path ≤ other := by
  -- they are the first of the sorted ones and all that follow it
  have spells (path : String) : path ∈ (sortedPaths w pattern).filter
      (fun path => w.isFile path ∧ Path.normalized path = file) ↔ Spells w pattern file path := by
    rw [List.mem_filter, mem_sortedPaths, decide_eq_true_eq]
    exact ⟨fun h => ⟨h.1, h.2.1, h.2.2⟩, fun h => ⟨h.matched, h.isFile, h.normalized⟩⟩
  have sorted := (pairwise_sortedPaths w pattern).filter
    fun path => w.isFile path ∧ Path.normalized path = file
  obtain ⟨path, hpath⟩ := h
  cases hs : (sortedPaths w pattern).filter
      (fun path => w.isFile path ∧ Path.normalized path = file) with
  | nil =>
    rw [← spells, hs] at hpath
    cases hpath
  | cons least others =>
    rw [hs] at sorted
    simp only [hs] at spells
    refine ⟨least, (spells least).mp (by simp), ?_⟩
    intro other hother
    rcases List.mem_cons.mp ((spells other).mpr hother) with rfl | member
    · exact String.le_refl _
    · exact (List.pairwise_cons.mp sorted).1 other member

theorem IsFoundAt.append {index : Nat} {path : String} (h : IsFoundAt w ps file index path)
    (qs : List String) : IsFoundAt w (ps ++ qs) file index path := by
  obtain ⟨pattern, hindex, hfirst⟩ := h.first
  obtain ⟨inside, -⟩ := List.getElem?_eq_some_iff.mp hindex
  refine ⟨⟨pattern, ?_, hfirst⟩, ?_⟩
  · rw [List.getElem?_append_left inside, hindex]
  · rw [List.take_append_of_le_length (Nat.le_of_lt inside)]
    exact h.fresh

theorem IsFoundAt.index_lt {index : Nat} {path : String} (h : IsFoundAt w patterns file index path) :
    index < patterns.length := by
  obtain ⟨pattern, hindex, -⟩ := h.first
  exact (List.getElem?_eq_some_iff.mp hindex).1

/-- A file that no earlier pattern matches is found by the last one. -/
theorem isFoundAt_last {pattern : String} (absent : file ∉ (expand w ps).2)
    (member : file ∈ files w pattern) :
    ∃ path, IsFoundAt w (ps ++ [pattern]) file ps.length path := by
  obtain ⟨path, spells, least⟩ := exists_least (mem_files_iff.mp member)
  refine ⟨path, ⟨pattern, by simp, spells, least⟩, ?_⟩
  rw [List.take_left]
  intro earlier hearlier other hother
  exact absent (mem_expand_iff.mpr ⟨earlier, hearlier, other, hother⟩)

/-- Each file that is found has its place. -/
theorem exists_isFoundAt (h : file ∈ (expand w patterns).2) :
    ∃ index path, IsFoundAt w patterns file index path := by
  induction patterns using List.reverseRecOn with
  | nil => cases h
  | append_singleton ps pattern ih =>
    by_cases earlier : file ∈ (expand w ps).2
    · obtain ⟨index, path, found⟩ := ih earlier
      exact ⟨index, path, found.append [pattern]⟩
    · obtain ⟨last, hlast, path, spells⟩ := mem_expand_iff.mp h
      have member : file ∈ files w pattern := by
        rcases List.mem_append.mp hlast with hlast | hlast
        · exact absurd (mem_expand_iff.mpr ⟨last, hlast, path, spells⟩) earlier
        · rw [← List.mem_singleton.mp hlast]
          exact mem_files_iff.mpr ⟨path, spells⟩
      obtain ⟨path, found⟩ := isFoundAt_last earlier member
      exact ⟨ps.length, path, found⟩

/-- The files of one pattern come in the order of the least paths to them. -/
theorem pairwise_files (w : Workspace) (pattern : String) :
    (appendNew [] (files w pattern)).Pairwise fun file other => ∀ path path',
      Spells w pattern file path → (∀ q, Spells w pattern file q → path ≤ q) →
      Spells w pattern other path' → path < path' := by
  apply (pairwise_appendNew (files w pattern)).imp
  rintro file other ⟨before, behind, cut, hfile, hother⟩ path path' spells least spells'
  obtain ⟨first, last, paths, rfl, rfl⟩ := List.map_eq_append_iff.mp cut
  have sorted := (pairwise_sortedPaths w pattern).filter w.isFile
  rw [paths, List.pairwise_append] at sorted
  obtain ⟨q, hq, normalized⟩ := List.mem_map.mp hfile
  have member : q ∈ (sortedPaths w pattern).filter w.isFile := by
    rw [paths]
    exact List.mem_append_left _ hq
  obtain ⟨matched, isFile⟩ := List.mem_filter.mp member
  have lower : path ≤ q := least q ⟨mem_sortedPaths.mp matched, isFile, normalized⟩
  have member' : path' ∈ first ++ last := by
    rw [← paths]
    exact List.mem_filter.mpr ⟨mem_sortedPaths.mpr spells'.matched, spells'.isFile⟩
  have upper : q ≤ path' := by
    rcases List.mem_append.mp member' with inside | inside
    · exact absurd (List.mem_map.mpr ⟨path', inside, spells'.normalized⟩) hother
    · exact sorted.2.2 q hq path' inside
  refine Std.lt_of_le_of_ne (String.le_trans lower upper) ?_
  rintro rfl
  -- one path has one normalised path, and that stands in front of the cut
  apply hother
  rw [← spells'.normalized, spells.normalized]
  exact hfile

/-- The files are found in their order: by the first pattern that matches them, and for one pattern
by the least path to them. -/
theorem pairwise_expand (w : Workspace) (patterns : List String) :
    (expand w patterns).2.Pairwise (ComesBefore w patterns) := by
  induction patterns using List.reverseRecOn with
  | nil => exact List.Pairwise.nil
  | append_singleton ps pattern ih =>
    have alone : (expand w [pattern]).2 = appendNew [] (files w pattern) := by
      rw [expand, expandFrom_files, List.flatMap_singleton]
    have new (file : String)
        (h : file ∈ (expand w [pattern]).2.filter (· ∉ (expand w ps).2)) :
        file ∈ files w pattern ∧ file ∉ (expand w ps).2 := by
      obtain ⟨member, absent⟩ := List.mem_filter.mp h
      rw [alone, mem_appendNew] at member
      exact ⟨member.resolve_left List.not_mem_nil, by simpa using absent⟩
    rw [expand_append_files, List.pairwise_append]
    refine ⟨?_, ?_, ?_⟩
    · apply ih.imp
      rintro file other ⟨i, path, j, path', found, found', order⟩
      exact ⟨i, path, j, path', found.append _, found'.append _, order⟩
    · have order := (pairwise_files w pattern).filter (· ∉ (expand w ps).2)
      rw [← alone] at order
      refine List.Pairwise.imp_of_mem ?_ order
      intro file other hfile hother order
      obtain ⟨member, absent⟩ := new file hfile
      obtain ⟨member', absent'⟩ := new other hother
      obtain ⟨path, found⟩ := isFoundAt_last absent member
      obtain ⟨path', found'⟩ := isFoundAt_last absent' member'
      refine ⟨ps.length, path, ps.length, path', found, found', Or.inr ⟨rfl, ?_⟩⟩
      obtain ⟨last, hlast, spells, least⟩ := found.first
      obtain ⟨last', hlast', spells', -⟩ := found'.first
      have same : last = pattern := by simpa using hlast.symm
      have same' : last' = pattern := by simpa using hlast'.symm
      subst same
      subst same'
      exact order path path' spells least spells'
    · intro file hfile other hother
      obtain ⟨member, absent⟩ := new other hother
      obtain ⟨i, path, found⟩ := exists_isFoundAt hfile
      obtain ⟨path', found'⟩ := isFoundAt_last absent member
      exact ⟨i, path, ps.length, path', found.append _, found', Or.inl found.index_lt⟩

/-- The files that patterns match: each of them once, under its normalised path, in the order in
which they are found. A path that is not rooted names the place where its file stands, so no file
has two of them. -/
structure IsExpansion (w : Workspace) (patterns found : List String) : Prop where
  distinct : found.Nodup
  mem_iff : ∀ file, file ∈ found ↔ ∃ pattern ∈ patterns, ∃ path, Spells w pattern file path
  ordered : found.Pairwise (ComesBefore w patterns)
  located : ∀ file ∈ found, Path.isRooted file = false →
    ∃ l bytes, file = Workspace.pathOf l ∧ w.find file = .ok (l, .file bytes)

theorem Spells.located {pattern path : String} (h : Spells w pattern file path)
    (relative : Path.isRooted file = false) :
    ∃ l bytes, file = Workspace.pathOf l ∧ w.find file = .ok (l, .file bytes) := by
  have start : Path.isRooted path = false := by
    cases rooted : Path.isRooted path with
    | false => rfl
    | true =>
      rw [← h.normalized, Path.isRooted_normalized rooted] at relative
      cases relative
  have isFile := h.isFile
  unfold Workspace.isFile at isFile
  split at isFile
  next l bytes found =>
    obtain ⟨normal, back⟩ := Workspace.normalized_of_find start found
    rw [h.normalized] at normal
    exact ⟨l, bytes, normal, normal ▸ back⟩
  next => cases isFile

/-- Patterns are expanded in order. What more patterns add are the files that they match alone,
without those that are there already, and there is one warning for each pattern that matches
nothing, whatever the others match. -/
theorem expand_isExpansion (w : Workspace) (ps qs : List String) :
    IsExpansion w ps (expand w ps).2 ∧
      (expand w (ps ++ qs)).2 =
        (expand w ps).2 ++ (expand w qs).2.filter (· ∉ (expand w ps).2) ∧
      (expand w ps).1 = (ps.filter fun p => (paths w p).isEmpty).map .patternUnmatched ∧
      (expand w (ps ++ qs)).1 = (expand w ps).1 ++ (expand w qs).1 ∧
      ∀ notice ∈ (expand w ps).1, notice.level = .warning := by
  refine ⟨⟨nodup_expandFrom List.nodup_nil, fun file => mem_expand_iff, pairwise_expand w ps, ?_⟩,
    expand_append_files ps qs, expandFrom_notices [] ps, expand_append_notices ps qs,
    fun notice h => level_of_mem_expandFrom h⟩
  intro file member relative
  obtain ⟨pattern, -, path, spells⟩ := mem_expand_iff.mp member
  exact spells.located relative

/-- A detour to one file, nothing, a directory, and then everything: the detour comes first, and the
others follow it in the order of their paths. -/
theorem expand_isExpansion_overlapping :
    let w : Workspace := ⟨[(["b"], .file .empty), (["a"], .file .empty), (["d"], .directory),
      (["d", "c"], .file .empty)]⟩
    IsExpansion w ["d/../b", "none", "d"] ["b"] ∧
      (expand w ["d/../b", "none", "d", "**"]).2 = ["b", "a", "d/c"] ∧
      (expand w ["d/../b", "none", "d", "**"]).1 = [.patternUnmatched "none"] := by
  intro w
  have first : expand w ["d/../b", "none", "d"] = ([.patternUnmatched "none"], ["b"]) := by
    decide +kernel
  have matched : paths w "**" = ["b", "a", "d", "d/c"] := by decide +kernel
  have sorted : sortedPaths w "**" = ["a", "b", "d", "d/c"] := by
    rw [sortedPaths, matched]
    simp [List.mergeSort]
  have last : expand w ["**"] = ([], ["a", "b", "d/c"]) := by
    simp only [expand, expandFrom, files, sorted, matched]
    decide +kernel
  obtain ⟨expansion, more, -, notices, -⟩ := expand_isExpansion w ["d/../b", "none", "d"] ["**"]
  rw [first] at expansion
  refine ⟨expansion, more.trans ?_, notices.trans ?_⟩
  · rw [first, last]
    decide
  · rw [first, last]
    rfl

end TagOutline.Glob
