import TagOutline.Proofs.Tag.Source

/-!
# One stream of tags

A source gives the tags of its lines one after another, whichever way it is read: one tag at a time,
all that are left, or now this way and now that. A tag leaves the source on its line, and where no
tag is left the source is left behind its last line, where it stays and gives nothing more.
-/

namespace TagOutline

/-- The two ways to read on. -/
inductive SourceStep where
  | next
  /-- Tag after tag to the end. -/
  | rest
  deriving DecidableEq

/-- What reading on gives. -/
inductive SourceAnswer where
  | one (tag : Option Tag)
  | all (tags : List Tag)
  deriving DecidableEq

namespace SourceAnswer

def tags : SourceAnswer → List Tag
  | .one tag => tag.toList
  | .all tags => tags

/-- The answer tells that no tag is left. -/
def isLast : SourceAnswer → Bool
  | .one tag => tag.isNone
  | .all _ => true

/-- Only an answer with a tag in it can leave open whether there are more. -/
theorem isLast_of_tags_eq_nil {a : SourceAnswer} (h : a.tags = []) : a.isLast = true := by
  cases a with
  | one tag => cases tag with
    | none => rfl
    | some t => cases h
  | all ts => rfl

theorem exists_tag_of_not_isLast {a : SourceAnswer} (h : a.isLast = false) :
    ∃ t, a = .one (some t) := by
  cases a with
  | one tag => cases tag with
    | none => cases h
    | some t => exact ⟨t, rfl⟩
  | all ts => cases h

end SourceAnswer

namespace Source

variable {s s' : Source} {t : Tag} {ts : List Tag}

/-! The next tag. -/

/-- Reading stops on the line of the first tag, or behind the last line. -/
theorem firstTag_snd (before : Nat) (ls : List String) :
    (firstTag before ls).2 =
      ((tagsAfter before ls).head?.map fun t => t.line.toNat).getD (before + ls.length) := by
  induction ls generalizing before with
  | nil => rfl
  | cons l ls ih =>
    cases read : Tag.ofLine? l (before + 1) with
    | none =>
      rw [firstTag, tagsAfter, read]
      simp only [ih, Option.toList_none, List.nil_append, List.length_cons]
      congr 1
      omega
    | some t =>
      have line := Tag.line_eq read
      rw [firstTag, tagsAfter, read]
      simp only [Option.toList_some, List.cons_append, List.head?_cons, Option.map_some,
        Option.getD_some]
      omega

theorem next_eq (s : Source) :
    s.next = ((firstTag s.cursor s.unread).1, ⟨s.lines, (firstTag s.cursor s.unread).2⟩) :=
  rfl

/-- All that asking for the next tag can do: it gives the first one ahead and leaves the others, or
there is none and it goes to the end. -/
theorem next_cases (s : Source) :
    (s.ahead = [] ∧ s.next = (none, s.finished)) ∨
      ∃ t ts, s.ahead = t :: ts ∧ s.next = (some t, s.readTo t) ∧ (s.readTo t).ahead = ts := by
  have tag : (firstTag s.cursor s.unread).1 = s.ahead.head? := s.next_fst
  have stop : (firstTag s.cursor s.unread).2 =
      (s.ahead.head?.map fun t => t.line.toNat).getD (s.cursor + s.unread.length) :=
    firstTag_snd s.cursor s.unread
  cases found : s.ahead with
  | nil =>
    have behind : s.cursor + s.unread.length = max s.cursor s.lines.length := by
      rw [unread, List.length_drop]
      omega
    rw [found] at tag stop
    refine Or.inl ⟨rfl, ?_⟩
    rw [next_eq, tag, stop, List.head?_nil, Option.map_none, Option.getD_none, behind, finished]
  | cons t ts =>
    rw [found] at tag stop
    refine Or.inr ⟨t, ts, rfl, ?_, @ahead_readTo s t [] ts found⟩
    rw [next_eq, tag, stop, List.head?_cons, Option.map_some, Option.getD_some, readTo]

theorem ahead_eq_of_next (h : s.next = (some t, s')) : s.ahead = t :: s'.ahead := by
  rcases s.next_cases with ⟨-, none⟩ | ⟨u, us, ahead, some, left⟩
  · rw [none] at h
    cases h
  · rw [some] at h
    cases h
    rw [ahead, left]

/-! Tag after tag. -/

/-- Asks for the next tag until there is none. -/
def drain (s : Source) : List Tag × Source :=
  match _ : s.next with
  | (none, s') => ([], s')
  | (some t, s') =>
    let (ts, last) := s'.drain
    (t :: ts, last)
termination_by s.ahead.length
decreasing_by
  rw [ahead_eq_of_next ‹s.next = (some t, s')›]
  exact Nat.lt_succ_self _

theorem ahead_finished (s : Source) : s.finished.ahead = [] := by
  have none : s.finished.unread = [] := List.drop_eq_nil_of_le (Nat.le_max_right _ _)
  rw [ahead, none]
  rfl

theorem finished_readTo (h : t ∈ s.ahead) : (s.readTo t).finished = s.finished := by
  have below := line_le_of_mem_ahead h
  have above : s.cursor < t.line := (line_of_mem_tagsAfter h).1
  simp only [finished, readTo, mk.injEq, true_and]
  omega

/-- Asking for the next tag until there is none gives all the tags that are still to come. -/
theorem drain_eq_rest (s : Source) : s.drain = s.rest := by
  fun_induction drain s with
  | case1 s s' next =>
    rcases s.next_cases with ⟨ahead, none⟩ | ⟨u, us, -, some, -⟩
    · rw [none] at next
      cases next
      rw [rest, ahead]
    · rw [some] at next
      cases next
  | case2 s t s' next ts last drained ih =>
    rcases s.next_cases with ⟨-, none⟩ | ⟨u, us, ahead, some, left⟩
    · rw [none] at next
      cases next
    · rw [some] at next
      cases next
      have member : t ∈ s.ahead := by simp [ahead]
      rw [drained, rest, left, finished_readTo member] at ih
      rw [rest, ahead, (Prod.mk.inj ih).1, (Prod.mk.inj ih).2]

/-! One way or the other. -/

/-- Reads on in one of the two ways. -/
def step (s : Source) : SourceStep → SourceAnswer × Source
  | .next => (.one s.next.1, s.next.2)
  | .rest => (.all s.drain.1, s.drain.2)

/-- What some steps one after another give, and the number of lines that have been read behind each
of them. -/
def replies (s : Source) : List SourceStep → List (SourceAnswer × Nat)
  | [] => []
  | c :: cs => ((s.step c).1, (s.step c).2.cursor) :: (s.step c).2.replies cs

/-- What one step does. -/
structure Advances (s : Source) (a : SourceAnswer) (s' : Source) : Prop where
  lines : s'.lines = s.lines
  tags : a.tags ++ s'.ahead = s.ahead
  last : a.isLast = true → s' = s.finished
  found : ∀ t, a = .one (some t) → t ∈ s.ahead ∧ s' = s.readTo t

theorem advances_step (s : Source) (c : SourceStep) : s.Advances (s.step c).1 (s.step c).2 := by
  cases c with
  | next =>
    rcases s.next_cases with ⟨ahead, none⟩ | ⟨t, ts, ahead, some, left⟩
    · rw [step, none]
      refine ⟨rfl, ?_, fun _ => rfl, ?_⟩
      · rw [ahead_finished, ahead]
        rfl
      · rintro t ⟨⟩
    · rw [step, some]
      refine ⟨rfl, ?_, ?_, ?_⟩
      · rw [left, ahead]
        rfl
      · intro last
        cases last
      · rintro u ⟨⟩
        exact ⟨by simp [ahead], rfl⟩
  | rest =>
    rw [step, drain_eq_rest]
    refine ⟨rfl, ?_, fun _ => rfl, ?_⟩
    · simp only [rest, SourceAnswer.tags, ahead_finished, List.append_nil]
    · rintro t ⟨⟩

variable {a : SourceAnswer}

theorem Advances.cursor_eq_of_isLast (h : s.Advances a s') (bound : s.cursor ≤ s.lines.length)
    (last : a.isLast = true) : s'.cursor = s.lines.length := by
  rw [h.last last, finished]
  exact Nat.max_eq_right bound

theorem Advances.line_eq (h : s.Advances (.one (some t)) s') : t.line = s'.cursor := by
  obtain ⟨member, rfl⟩ := h.found t rfl
  have above : s.cursor < t.line := (line_of_mem_tagsAfter member).1
  have stop : (s.readTo t).cursor = t.line.toNat := rfl
  omega

theorem Advances.cursor_le (h : s.Advances a s') (bound : s.cursor ≤ s.lines.length) :
    s'.cursor ≤ s'.lines.length := by
  rw [h.lines]
  cases last : a.isLast with
  | true => exact Nat.le_of_eq (h.cursor_eq_of_isLast bound last)
  | false =>
    obtain ⟨t, rfl⟩ := SourceAnswer.exists_tag_of_not_isLast last
    have below := line_le_of_mem_ahead (h.found t rfl).1
    have line := h.line_eq
    omega

/-- Behind the last line no tag is ahead. -/
theorem ahead_eq_nil (h : s.cursor = s.lines.length) : s.ahead = [] := by
  have none : s.unread = [] := List.drop_eq_nil_of_le (Nat.le_of_eq h.symm)
  rw [ahead, none]
  rfl

/-- Answers that give the tags `ts` of a text with `count` lines, each with the number of lines that
have been read by then. -/
structure IsOneStream (ts : List Tag) (count : Nat) (rs : List (SourceAnswer × Nat)) : Prop where
  /-- The answers give the first of the tags, in order. -/
  inOrder : rs.flatMap (fun r => r.1.tags) <+: ts
  /-- They give all of them, once every line has been read. -/
  whole : (∃ r ∈ rs, r.2 = count) → rs.flatMap (fun r => r.1.tags) = ts
  /-- One tag at a time leaves the source on its line. -/
  onLine : ∀ (t : Tag) (n : Nat), (.one (some t), n) ∈ rs → t.line = n
  /-- Where no tag is left, the source is left behind the last line. -/
  behind : ∀ r ∈ rs, r.1.isLast = true → r.2 = count
  /-- From there on nothing is given, and the source stays. -/
  silent : rs.Pairwise fun r q => r.2 = count → q.1.tags = [] ∧ q.2 = count

/-- One more step in front leaves the stream one, for it gives what the others have not. -/
theorem IsOneStream.cons {rs : List (SourceAnswer × Nat)} (bound : s.cursor ≤ s.lines.length)
    (h : s.Advances a s') (others : IsOneStream s'.ahead s'.lines.length rs) :
    IsOneStream s.ahead s.lines.length ((a, s'.cursor) :: rs) := by
  have count : s'.lines.length = s.lines.length := by rw [h.lines]
  rw [count] at others
  have nothing (read : s'.cursor = s.lines.length) : rs.flatMap (fun r => r.1.tags) = [] := by
    have inOrder := others.inOrder
    rw [ahead_eq_nil (read.trans count.symm)] at inOrder
    exact List.prefix_nil.mp inOrder
  refine ⟨?_, ?_, ?_, ?_, List.pairwise_cons.mpr ⟨?_, others.silent⟩⟩
  · rw [List.flatMap_cons, ← h.tags]
    exact (List.prefix_append_right_inj _).mpr others.inOrder
  · rintro ⟨r, hr, read⟩
    rw [List.flatMap_cons, ← h.tags]
    congr 1
    rcases List.mem_cons.mp hr with rfl | hr
    · rw [nothing read, ahead_eq_nil (read.trans count.symm)]
    · exact others.whole ⟨r, hr, read⟩
  · intro t n found
    rcases List.mem_cons.mp found with here | later
    · obtain ⟨rfl, rfl⟩ := Prod.mk.inj here
      exact h.line_eq
    · exact others.onLine t n later
  · intro r hr last
    rcases List.mem_cons.mp hr with rfl | hr
    · exact h.cursor_eq_of_isLast bound last
    · exact others.behind r hr last
  · intro q hq read
    have none : q.1.tags = [] := List.flatMap_eq_nil_iff.mp (nothing read) q hq
    exact ⟨none, others.behind q hq (SourceAnswer.isLast_of_tags_eq_nil none)⟩

/-- From wherever a source is read on, its answers are one stream of the tags ahead. -/
theorem isOneStream_of_bound (bound : s.cursor ≤ s.lines.length) (cs : List SourceStep) :
    IsOneStream s.ahead s.lines.length (s.replies cs) := by
  induction cs generalizing s with
  | nil =>
    refine ⟨List.nil_prefix, ?_, ?_, ?_, List.Pairwise.nil⟩
    · rintro ⟨r, hr, -⟩
      cases hr
    · intro t n found
      cases found
    · intro r hr
      cases hr
  | cons c cs ih =>
    have h := s.advances_step c
    exact IsOneStream.cons bound h (ih (h.cursor_le bound))

/-- The tags on some lines are read line by line. -/
theorem tagsAfter_eq_filterMap (before : Nat) (ls : List String) :
    tagsAfter before ls = (ls.zipIdx (before + 1)).filterMap fun l => Tag.ofLine? l.1 l.2 := by
  induction ls generalizing before with
  | nil => rfl
  | cons l ls ih =>
    have number : ((before + 1 : Nat) : Int) = before + 1 := rfl
    rw [tagsAfter, ih, List.zipIdx_cons, List.filterMap_cons, number]
    cases Tag.ofLine? l (before + 1) with
    | none => rfl
    | some t => rfl

/-- A text has one stream of tags, however it is read: what its lines give, line by line, where the
text is cut at its line feeds and the empty text has no line. Some steps in either way give the
first of these tags, in order and with growing line numbers, and all of them once every line has
been read. A tag that was asked for leaves the source on its line. Where none is left, the source is
left behind the last line; from there on every step gives nothing and leaves it there. -/
theorem replies_isOneStream (text : String) (cs : List SourceStep) :
    Text.lines text =
      (if text = "" then [] else (text.toList.splitOn '\n').map String.ofList) ∧
    IsOneStream (((Text.lines text).zipIdx 1).filterMap fun l => Tag.ofLine? l.1 l.2)
      (Text.lines text).length ((ofText text).replies cs) ∧
    (((ofText text).replies cs).flatMap fun r => r.1.tags).Pairwise fun t u => t.line < u.line := by
  have stream : (ofText text).ahead =
      ((Text.lines text).zipIdx 1).filterMap fun l => Tag.ofLine? l.1 l.2 :=
    tagsAfter_eq_filterMap 0 (Text.lines text)
  have replies := isOneStream_of_bound (s := ofText text) (Nat.zero_le _) cs
  refine ⟨?_, stream ▸ replies, ?_⟩
  · by_cases empty : text = ""
    · rw [if_pos empty, empty]
      rfl
    · rw [if_neg empty, Text.lines_of_ne_empty empty]
  · exact (pairwise_line_tagsAfter 0 (Text.lines text)).sublist replies.inOrder.sublist

/-- A tag by itself, then all the others, and then there is nothing more in either way. -/
theorem replies_isOneStream_switched :
    let rs := (ofText "@a 1\nplain\n @b\n\n@c 3").replies [.next, .rest, .next, .rest]
    rs = [(.one (some ⟨"a", "1", 1⟩), 1), (.all [⟨"b", "", 3⟩, ⟨"c", "3", 5⟩], 5), (.one none, 5),
        (.all [], 5)] ∧
      (rs.flatMap fun r => r.1.tags) =
        (["@a 1", "plain", " @b", "", "@c 3"].zipIdx 1).filterMap
          (fun l => Tag.ofLine? l.1 l.2) := by
  intro rs
  have given : rs = [(.one (some ⟨"a", "1", 1⟩), 1), (.all [⟨"b", "", 3⟩, ⟨"c", "3", 5⟩], 5),
      (.one none, 5), (.all [], 5)] := by
    simp only [rs, replies, step, drain_eq_rest]
    rfl
  obtain ⟨-, stream, -⟩ :=
    replies_isOneStream "@a 1\nplain\n @b\n\n@c 3" [.next, .rest, .next, .rest]
  have last : (.one none, 5) ∈ rs := by simp [given]
  exact ⟨given, stream.whole ⟨_, last, rfl⟩⟩

end Source

end TagOutline
