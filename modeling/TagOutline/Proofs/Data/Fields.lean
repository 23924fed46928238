import Mathlib.Data.List.Basic
import Mathlib.Data.List.Induction
import TagOutline.Data.Fields

/-!
# Fields as written

Writing an entry keeps the keys if one of them is the same key, and puts the new key behind them
otherwise. So a field stands where its key was written first, no two fields have the same key, and
entries under keys that are all different are the fields that writing them leads to. In general
writing leads to one field for each key that is written: where and as the key is written first, with
what is written last under it.
-/

namespace TagOutline.Fields

variable {α : Type}

/-- A new key goes behind the others. -/
theorem put_of_absent {k : Key} {m : Fields α} (a : α) (h : ∀ e ∈ m, e.1.same k = false) :
    put k a m = m ++ [(k, a)] := by
  induction m with
  | nil => rfl
  | cons e m ih =>
    have he : e.1.same k = false := h e (by simp)
    have hm : put k a m = m ++ [(k, a)] := ih fun f hf => h f (List.mem_cons_of_mem _ hf)
    simp [put, he, hm]

/-- A key that is there keeps its place and its spelling. -/
theorem keys_put_of_present {k : Key} {m : Fields α} (a : α) (h : ∃ e ∈ m, e.1.same k = true) :
    (put k a m).map Prod.fst = m.map Prod.fst := by
  induction m with
  | nil =>
    obtain ⟨e, he, -⟩ := h
    cases he
  | cons e m ih =>
    by_cases hk : e.1.same k = true
    · simp [put, hk]
    · have hm : ∃ f ∈ m, f.1.same k = true := by
        obtain ⟨f, hf, hsame⟩ := h
        rcases List.mem_cons.mp hf with rfl | hf
        · exact absurd hsame hk
        · exact ⟨f, hf, hsame⟩
      simp [put, hk, ih hm]

/-- A key that is not there is the same as none. -/
theorem absent_of_not_present {k : Key} {m : Fields α} (h : ¬ ∃ e ∈ m, e.1.same k = true) :
    ∀ e ∈ m, e.1.same k = false := by
  intro e he
  cases hs : e.1.same k with
  | false => rfl
  | true => exact absurd ⟨e, he, hs⟩ h

/-- The last of several entries is written to what the others lead to. -/
theorem ofList_concat (entries : List (Key × α)) (e : Key × α) :
    ofList (entries ++ [e]) = put e.1 e.2 (ofList entries) := by
  simp [ofList, putAll]

/-- What holds of all keys and of all contents holds of those of a new entry. -/
theorem forall_put {P : Key → Prop} {Q : α → Prop} {k : Key} {a : α} {m : Fields α}
    (hm : ∀ e ∈ m, P e.1 ∧ Q e.2) (hk : P k) (ha : Q a) : ∀ e ∈ put k a m, P e.1 ∧ Q e.2 := by
  induction m with
  | nil =>
    intro e he
    rw [List.mem_singleton.mp he]
    exact ⟨hk, ha⟩
  | cons f m ih =>
    have hf : P f.1 ∧ Q f.2 := hm f (by simp)
    have hrest : ∀ e ∈ m, P e.1 ∧ Q e.2 := fun e he => hm e (List.mem_cons_of_mem _ he)
    intro e he
    rw [put] at he
    split at he
    · rcases List.mem_cons.mp he with rfl | he
      · exact ⟨hf.1, ha⟩
      · exact hrest e he
    · rcases List.mem_cons.mp he with rfl | he
      · exact hf
      · exact ih hrest e he

/-- What holds of the written keys and contents holds of the fields. -/
theorem forall_ofList {P : Key → Prop} {Q : α → Prop} {entries : List (Key × α)}
    (h : ∀ e ∈ entries, P e.1 ∧ Q e.2) : ∀ e ∈ ofList entries, P e.1 ∧ Q e.2 := by
  induction entries using List.reverseRecOn with
  | nil => exact h
  | append_singleton entries e ih =>
    rw [ofList_concat]
    have he : P e.1 ∧ Q e.2 := h e (by simp)
    exact forall_put (ih fun f hf => h f (List.mem_append_left _ hf)) he.1 he.2

/-- No two fields have the same key. -/
theorem pairwise_ofList (entries : List (Key × α)) :
    (ofList entries).Pairwise fun e f => e.1.same f.1 = false := by
  induction entries using List.reverseRecOn with
  | nil => exact List.Pairwise.nil
  | append_singleton entries e ih =>
    rw [ofList_concat]
    by_cases hp : ∃ f ∈ ofList entries, f.1.same e.1 = true
    · have hkeys : ((ofList entries).map Prod.fst).Pairwise fun j k => j.same k = false :=
        List.pairwise_map.mpr ih
      rw [← keys_put_of_present e.2 hp] at hkeys
      exact List.pairwise_map.mp hkeys
    · have absent := absent_of_not_present hp
      rw [put_of_absent e.2 absent, List.pairwise_append]
      refine ⟨ih, List.pairwise_singleton _ _, ?_⟩
      intro f hf g hg
      rw [List.mem_singleton.mp hg]
      exact absent f hf

/-- Entries under different keys are the fields that writing them leads to. -/
theorem ofList_of_pairwise {entries : List (Key × α)}
    (h : entries.Pairwise fun e f => e.1.same f.1 = false) : ofList entries = entries := by
  induction entries using List.reverseRecOn with
  | nil => rfl
  | append_singleton entries e ih =>
    rw [List.pairwise_append] at h
    obtain ⟨hentries, -, hlast⟩ := h
    rw [ofList_concat, ih hentries]
    exact put_of_absent e.2 fun f hf => hlast f hf e (by simp)

/-! Looking up fields. -/

theorem get?_congr {j k : Key} (h : j.same k = true) (m : Fields α) : m.get? j = m.get? k := by
  have alike (i : Key) : i.same j = i.same k := by
    rw [Key.same, Key.same, Key.same_iff.mp h]
  induction m with
  | nil => rfl
  | cons e m ih => rw [get?, get?, alike, ih]

/-- Every entry is found under its key. -/
theorem get?_of_mem {m : Fields α} (distinct : m.Pairwise fun e f => e.1.same f.1 = false)
    {f : Key × α} (h : f ∈ m) : m.get? f.1 = some f.2 := by
  induction m with
  | nil => cases h
  | cons e m ih =>
    rw [List.pairwise_cons] at distinct
    rcases List.mem_cons.mp h with rfl | h
    · simp [get?]
    · simp [get?, distinct.1 f h, ih distinct.2 h]

theorem get?_eq_some_iff {m : Fields α} (distinct : m.Pairwise fun e f => e.1.same f.1 = false)
    {k : Key} {a : α} : m.get? k = some a ↔ ∃ f ∈ m, f.1.same k = true ∧ f.2 = a := by
  constructor
  · intro found
    induction m with
    | nil => cases found
    | cons e m ih =>
      rw [get?] at found
      split at found
      next same => exact ⟨e, by simp, same, Option.some.inj found⟩
      next =>
        obtain ⟨f, hf, same, value⟩ := ih (List.pairwise_cons.mp distinct).2 found
        exact ⟨f, List.mem_cons_of_mem _ hf, same, value⟩
  · rintro ⟨f, hf, same, rfl⟩
    rw [← get?_congr same, get?_of_mem distinct hf]

/-! First keys and last entries. -/

theorem eraseDupsBy_loop_concat (r : α → α → Bool) (as : List α) (a : α) (kept : List α) :
    List.eraseDupsBy.loop r (as ++ [a]) kept =
      if (List.eraseDupsBy.loop r as kept).any (r a) then List.eraseDupsBy.loop r as kept
      else List.eraseDupsBy.loop r as kept ++ [a] := by
  induction as generalizing kept with
  | nil =>
    cases dup : kept.any (r a) with
    | true => simp [List.eraseDupsBy.loop, dup]
    | false => simp [List.eraseDupsBy.loop, dup]
  | cons b as ih =>
    cases dup : kept.any (r b) with
    | true => simp only [List.cons_append, List.eraseDupsBy.loop, dup, ih]
    | false => simp only [List.cons_append, List.eraseDupsBy.loop, dup, ih]

/-- What comes last is kept behind the others, unless one of those that are kept is the same. -/
theorem eraseDupsBy_concat (r : α → α → Bool) (as : List α) (a : α) :
    (as ++ [a]).eraseDupsBy r =
      if (as.eraseDupsBy r).any (r a) then as.eraseDupsBy r else as.eraseDupsBy r ++ [a] :=
  eraseDupsBy_loop_concat r as a []

theorem eraseDupsBy_map {β : Type} {r : β → β → Bool} {s : α → α → Bool} {f : α → β}
    (h : ∀ a b, r (f a) (f b) = s a b) (as : List α) :
    (as.map f).eraseDupsBy r = (as.eraseDupsBy s).map f := by
  induction as using List.reverseRecOn with
  | nil => rfl
  | append_singleton as a ih =>
    have found : ((as.eraseDupsBy s).map f).any (r (f a)) = (as.eraseDupsBy s).any (s a) := by
      simp only [List.any_map, Function.comp_def, h]
    rw [List.map_append, List.map_singleton, eraseDupsBy_concat, eraseDupsBy_concat, ih, found]
    split
    · rfl
    · rw [List.map_append, List.map_singleton]

/-- The keys that are written, each where and as it is written first. -/
def firstKeys (entries : List (Key × α)) : List Key :=
  (entries.map Prod.fst).eraseDupsBy Key.same

/-- What is written last under a key. -/
def lastUnder? (entries : List (Key × α)) (k : Key) : Option α :=
  (entries.reverse.find? fun e => e.1.same k).map Prod.snd

/-- Each key where and as it is written first, with what is written last under it. -/
def lastWritten (entries : List (Key × α)) : Fields α :=
  (firstKeys entries).filterMap fun k => (lastUnder? entries k).map fun a => (k, a)

/-- Writing keeps the keys as they are written first. -/
theorem keys_ofList (entries : List (Key × α)) :
    (ofList entries).map Prod.fst = firstKeys entries := by
  induction entries using List.reverseRecOn with
  | nil => rfl
  | append_singleton entries e ih =>
    rw [ofList_concat, firstKeys, List.map_append, List.map_singleton, eraseDupsBy_concat,
      ← firstKeys, ← ih]
    by_cases present : ∃ f ∈ ofList entries, f.1.same e.1 = true
    · have found : ((ofList entries).map Prod.fst).any e.1.same = true := by
        obtain ⟨f, hf, same⟩ := present
        exact List.any_eq_true.mpr ⟨f.1, List.mem_map_of_mem hf, e.1.same_comm f.1 ▸ same⟩
      rw [keys_put_of_present e.2 present, if_pos found]
    · have absent := absent_of_not_present present
      have fresh : ¬ ((ofList entries).map Prod.fst).any e.1.same = true := by
        rw [List.any_map, List.any_eq_true]
        rintro ⟨f, hf, same⟩
        rw [Function.comp_apply, e.1.same_comm, absent f hf] at same
        cases same
      rw [put_of_absent e.2 absent, if_neg fresh, List.map_append, List.map_singleton]

/-- Under each key is found what is written last under it. -/
theorem get?_ofList (entries : List (Key × α)) (k : Key) :
    (ofList entries).get? k = lastUnder? entries k := by
  induction entries using List.reverseRecOn with
  | nil => rfl
  | append_singleton entries e ih =>
    rw [ofList_concat, lastUnder?, List.reverse_concat, List.find?_cons]
    cases same : e.1.same k with
    | true =>
      rw [← get?_congr same, get?_put_self]
      rfl
    | false =>
      rw [get?_put_of_not_same e.2 _ same, ih]
      rfl

/-- Fields with different keys are made up of their keys and of what is found under them. -/
theorem eq_filterMap_keys {m : Fields α} (distinct : m.Pairwise fun e f => e.1.same f.1 = false) :
    m = (m.map Prod.fst).filterMap fun k => (m.get? k).map fun a => (k, a) := by
  have each : ∀ e ∈ m, ((m.get? e.1).map fun a => (e.1, a)) = some e := by
    intro e he
    rw [get?_of_mem distinct he]
    rfl
  rw [List.filterMap_map]
  conv_lhs => rw [← List.filterMap_some (l := m)]
  exact List.filterMap_congr fun e he => (each e he).symm

/-- Writing entries one after another leads to each key as it is written first, with what is written
last under it. -/
theorem ofList_eq_lastWritten (entries : List (Key × α)) : ofList entries = lastWritten entries := by
  rw [eq_filterMap_keys (pairwise_ofList entries), keys_ofList, lastWritten]
  simp only [get?_ofList]

/-- A key is there if it is written. -/
theorem exists_same_ofList_iff (entries : List (Key × α)) (k : Key) :
    (∃ f ∈ ofList entries, f.1.same k = true) ↔ ∃ e ∈ entries, e.1.same k = true := by
  have found : (∃ f ∈ ofList entries, f.1.same k = true) ↔
      ∃ a, (ofList entries).get? k = some a := by
    simp only [get?_eq_some_iff (pairwise_ofList entries)]
    constructor
    · rintro ⟨f, hf, same⟩
      exact ⟨f.2, f, hf, same, rfl⟩
    · rintro ⟨a, f, hf, same, -⟩
      exact ⟨f, hf, same⟩
  rw [found, get?_ofList, lastUnder?, ← Option.isSome_iff_exists, Option.isSome_map,
    List.find?_isSome]
  simp only [List.mem_reverse]

end TagOutline.Fields
