import Mathlib.Data.List.Basic
import TagOutline.Pool

/-!
# Jobs done by a schedule

A turn changes the state of one job, or takes one, or gives up those that wait, and tells one notice
at most. So whatever the schedule is, what is told is woven together from what the jobs tell, each
in its own order; all jobs are done unless there is an error; and the result is put together from
all of them, or is the error of one of them. A single worker does one job after another.
-/

namespace TagOutline

/-- A list that takes its items from the fronts of other lists, one at a time, until all of them are
empty. -/
inductive Interleaves {α : Type} : List (List α) → List α → Prop where
  | nil {ls : List (List α)} (empty : ∀ l ∈ ls, l = []) : Interleaves ls []
  | cons {ls : List (List α)} {i : Nat} {a : α} {l as : List α} (front : ls[i]? = some (a :: l))
      (others : Interleaves (ls.set i l) as) : Interleaves ls (a :: as)

namespace Interleaves

variable {α : Type} {ls : List (List α)} {as : List α}

theorem nil_cons (h : Interleaves ls as) : Interleaves ([] :: ls) as := by
  induction h with
  | nil empty => exact .nil (by simpa using empty)
  | @cons ls i a l as front others ih => exact .cons (i := i + 1) (by simpa using front) ih

/-- Lists are woven together one after another. -/
theorem flatten (ls : List (List α)) : Interleaves ls ls.flatten := by
  induction ls with
  | nil => exact .nil (by simp)
  | cons l ls ih =>
    induction l with
    | nil => exact ih.nil_cons
    | cons a l whole => exact .cons (i := 0) rfl whole

theorem perm_flatten_set {i : Nat} {a : α} {l : List α} (front : ls[i]? = some (a :: l)) :
    ls.flatten.Perm (a :: (ls.set i l).flatten) := by
  induction ls generalizing i with
  | nil => cases front
  | cons k ls ih =>
    cases i with
    | zero =>
      obtain rfl := Option.some.inj front
      exact .refl _
    | succ i =>
      rw [List.set_cons_succ, List.flatten_cons, List.flatten_cons]
      exact ((ih (by simpa using front)).append_left k).trans List.perm_middle

/-- What is woven together are the items of the lists. -/
theorem perm (h : Interleaves ls as) : as.Perm ls.flatten := by
  induction h with
  | nil empty => rw [List.flatten_eq_nil_iff.mpr empty]
  | cons front others ih => exact (ih.cons _).trans (perm_flatten_set front).symm

end Interleaves

/-! Results put together. -/

section

variable {ε α : Type} {rs : List (Except ε (List α))} {xs : List α} {e : ε}

theorem gather_found_cons_eq_error_iff : gather (.ok xs :: rs) = .error e ↔ gather rs = .error e := by
  rw [gather]
  cases gather rs <;> simp [Except.map]

theorem gather_eq_error_of_mem (h : .error e ∈ rs) : ∃ e, gather rs = .error e := by
  induction rs with
  | nil => cases h
  | cons r rs ih =>
    cases r with
    | error f => exact ⟨f, rfl⟩
    | ok xs =>
      obtain ⟨f, hf⟩ := ih (by simpa using h)
      exact ⟨f, gather_found_cons_eq_error_iff.mpr hf⟩

theorem mem_of_gather_eq_error (h : gather rs = .error e) : .error e ∈ rs := by
  induction rs with
  | nil => cases h
  | cons r rs ih =>
    cases r with
    | error f =>
      cases h
      simp
    | ok xs => exact List.mem_cons_of_mem _ (ih (gather_found_cons_eq_error_iff.mp h))

/-- What stands behind an error has no part in the result. -/
theorem gather_append_of_error (h : gather rs = .error e) (ss : List (Except ε (List α))) :
    gather (rs ++ ss) = .error e := by
  induction rs with
  | nil => cases h
  | cons r rs ih =>
    cases r with
    | error f => exact h
    | ok xs =>
      rw [List.cons_append, gather_found_cons_eq_error_iff]
      exact ih (gather_found_cons_eq_error_iff.mp h)

/-- The first error among results is the one among those in front, if there is one. -/
theorem error?_gather_append {τ : Type} (rs : List (Except ε (List α))) (r : Except ε (List α)) :
    (Progress.ended (gather (rs ++ [r])) : Progress τ ε _).error? =
      (Progress.ended (gather rs) : Progress τ ε _).error?.or
        (Progress.ended r : Progress τ ε _).error? := by
  induction rs with
  | nil => cases r <;> rfl
  | cons s rs ih =>
    cases s with
    | error e => rfl
    | ok xs =>
      rw [List.cons_append, gather, gather]
      revert ih
      cases gather (rs ++ [r]) <;> cases gather rs <;> exact id

end

namespace Progress

variable {ε α : Type}

/-- What a job has still to tell. -/
def untold : Progress (Logged ε α) ε α → List Notice
  | .left job => job.notices
  | .ended _ => []

/-- What a job ends with. -/
def outcome : Progress (Logged ε α) ε α → Except ε α
  | .left job => job.result
  | .ended result => result

theorem outcome_of_error? {x : Progress (Logged ε α) ε α} {e : ε} (h : x.error? = some e) :
    x.outcome = .error e := by
  cases x with
  | left job => cases h
  | ended result =>
    cases result with
    | ok a => cases h
    | error f =>
      cases h
      rfl

end Progress

namespace Pool

variable {δ ε α : Type} {workers n : Nat} {t : Turn} {ts : List Turn} {ns told : List Notice}

/-! One turn. -/

section

variable {p q : Pool (Logged ε α) ε α}

/-- What a turn does, and what it tells. -/
inductive Goes (workers : Nat) (p : Pool (Logged ε α) ε α) :
    Turn → List Notice → Pool (Logged ε α) ε α → Prop where
  | passed (t : Turn) : Goes workers p t [] p
  | taken {job : Logged ε α} {jobs : List (Logged ε α)} (waits : p.waiting = job :: jobs)
      (free : p.busy < workers) :
      Goes workers p .take [] { p with taken := p.taken ++ [.left job], waiting := jobs }
  | told {i : Nat} {n : Notice} {ns : List Notice} {r : Except ε α}
      (here : p.taken[i]? = some (.left ⟨n :: ns, r⟩)) :
      Goes workers p (.go i) [n] (p.record i (.left ⟨ns, r⟩))
  | ended {i : Nat} {r : Except ε α} (here : p.taken[i]? = some (.left ⟨[], r⟩)) :
      Goes workers p (.go i) [] (p.record i (.ended r))
  | closed {e : ε} (failed : p.failure = some e) :
      Goes workers p .close [] { p with waiting := [] }

theorem exists_goes (workers : Nat) (p : Pool (Logged ε α) ε α) (t : Turn) :
    ∃ ns q, (p.turn Logged.worker workers t : Logged δ _) = ⟨ns, .ok q⟩ ∧ Goes workers p t ns q := by
  cases t with
  | take =>
    rw [turn, take]
    split
    · exact ⟨[], p, rfl, .passed _⟩
    next job jobs waits =>
      split
      next free => exact ⟨[], _, rfl, .taken waits free⟩
      · exact ⟨[], p, rfl, .passed _⟩
  | go i =>
    rw [turn]
    split
    next job here =>
      obtain ⟨notices, r⟩ := job
      cases notices with
      | nil => exact ⟨[], _, rfl, .ended here⟩
      | cons n ns => exact ⟨[n], _, rfl, .told here⟩
    · exact ⟨[], p, rfl, .passed _⟩
  | close =>
    rw [turn, close]
    split
    next failed =>
      obtain ⟨e, failed⟩ := Option.isSome_iff_exists.mp failed
      exact ⟨[], _, rfl, .closed failed⟩
    · exact ⟨[], p, rfl, .passed _⟩

/-- What is done if of the jobs that wait the first `n` are: these, and those that were taken. -/
def upTo (p : Pool (Logged ε α) ε α) (n : Nat) : List (Progress (Logged ε α) ε α) :=
  p.taken ++ (p.waiting.take n).map .left

theorem upTo_taken {job : Logged ε α} {jobs : List (Logged ε α)} (waits : p.waiting = job :: jobs) :
    upTo { p with taken := p.taken ++ [.left job], waiting := jobs } n = p.upTo (n + 1) := by
  simp [upTo, waits]

theorem upTo_closed : upTo { p with waiting := [] } n = p.upTo 0 := by
  simp [upTo]

theorem upTo_record {i : Nat} {x y : Progress (Logged ε α) ε α} (here : p.taken[i]? = some y) :
    (p.record i x).upTo n = (p.upTo n).set i x := by
  obtain ⟨inside, -⟩ := List.getElem?_eq_some_iff.mp here
  simp [upTo, record, inside]

theorem getElem?_upTo {i : Nat} {x : Progress (Logged ε α) ε α} (here : p.taken[i]? = some x) :
    (p.upTo n)[i]? = some x := by
  obtain ⟨inside, -⟩ := List.getElem?_eq_some_iff.mp here
  rw [upTo, List.getElem?_append_left inside, here]

/-- A job that goes on ends with what it would have ended with. -/
theorem map_outcome_record {i : Nat} {x y : Progress (Logged ε α) ε α}
    (here : p.taken[i]? = some y) (same : x.outcome = y.outcome) :
    ((p.record i x).upTo n).map Progress.outcome = (p.upTo n).map Progress.outcome := by
  have place : ((p.upTo n).map Progress.outcome)[i]? = some x.outcome := by
    rw [List.getElem?_map, getElem?_upTo here, same]
    rfl
  obtain ⟨inside, here'⟩ := List.getElem?_eq_some_iff.mp place
  rw [upTo_record here, List.map_set, ← here', List.set_getElem_self inside]

end

/-! A single worker. -/

section

variable {p q : Pool (Logged ε (List α)) ε (List α)}

/-- The jobs that were taken have ended one after another, but for the last one. -/
def IsInOrder (p : Pool (Logged ε (List α)) ε (List α)) : Prop :=
  ∃ (rs : List (Except ε (List α))) (last : Option (Logged ε (List α))),
    p.taken = rs.map .ended ++ last.toList.map .left ∧
      p.failure = (Progress.ended (gather rs) : Progress (Logged ε (List α)) ε _).error?

theorem isInOrder_ofJobs (jobs : List (Logged ε (List α))) : (ofJobs jobs).IsInOrder :=
  ⟨[], none, rfl, rfl⟩

/-- Behind jobs that have ended, only the last one can go on. -/
theorem eq_of_getElem?_left {rs : List (Except ε (List α))} {last : Option (Logged ε (List α))}
    {i : Nat} {job : Logged ε (List α)}
    (here : (rs.map Progress.ended ++ last.toList.map Progress.left)[i]? = some (.left job)) :
    i = rs.length ∧ last = some job := by
  rcases Nat.lt_or_ge i rs.length with inside | behind
  · rw [List.getElem?_append_left (by simpa using inside)] at here
    simp [inside] at here
  · rw [List.getElem?_append_right (by simpa using behind), List.length_map] at here
    cases last with
    | none => cases here
    | some j =>
      obtain ⟨inside, here⟩ := List.getElem?_eq_some_iff.mp here
      simp only [Option.toList_some, List.map_cons, List.map_nil, List.length_singleton] at inside
      have at_last : i = rs.length := by omega
      subst at_last
      simp only [Option.toList_some, List.map_cons, List.map_nil, Nat.sub_self,
        List.getElem_cons_zero, Progress.left.injEq] at here
      exact ⟨rfl, congrArg some here⟩

/-- A single worker takes a job when the one before it has ended. -/
theorem Goes.isInOrder (step : Goes workers p t ns q) (single : workers ≤ 1)
    (ordered : p.IsInOrder) : q.IsInOrder := by
  obtain ⟨rs, last, taken, failure⟩ := ordered
  cases step with
  | passed => exact ⟨rs, last, taken, failure⟩
  | @taken job jobs waits free =>
    have idle : last = none := by
      cases last with
      | none => rfl
      | some j =>
        have busy : p.busy = 1 := by
          simp [Pool.busy, taken, List.countP_append, List.countP_map, Function.comp_def,
            Progress.isLeft]
        omega
    subst idle
    exact ⟨rs, some job, by simp [taken], failure⟩
  | @told i m ms r here =>
    rw [taken] at here
    obtain ⟨rfl, rfl⟩ := eq_of_getElem?_left here
    exact ⟨rs, some ⟨ms, r⟩, by simp [record, taken], by simp [record, failure, Progress.error?]⟩
  | @ended i r here =>
    rw [taken] at here
    obtain ⟨rfl, rfl⟩ := eq_of_getElem?_left here
    refine ⟨rs ++ [r], none, by simp [record, taken], ?_⟩
    rw [record, failure, error?_gather_append]
  | closed failed => exact ⟨rs, last, taken, failure⟩

/-- What is told next is told by the job that all others wait for. -/
theorem IsInOrder.flatMap_untold (ordered : p.IsInOrder) {i : Nat} {m : Notice} {ms : List Notice}
    {r : Except ε (List α)} (here : p.taken[i]? = some (.left ⟨m :: ms, r⟩)) :
    (p.upTo n).flatMap Progress.untold =
      m :: ((p.record i (.left ⟨ms, r⟩)).upTo n).flatMap Progress.untold := by
  obtain ⟨rs, last, taken, -⟩ := ordered
  rw [taken] at here
  obtain ⟨rfl, rfl⟩ := eq_of_getElem?_left here
  have ended : (rs.map Progress.ended).flatMap Progress.untold = [] := by
    simp [List.flatMap_map, Progress.untold]
  simp [upTo, record, taken, ended, Progress.untold]

theorem IsInOrder.resultOf_eq (ordered : p.IsInOrder) :
    p.resultOf ((p.upTo n).map Progress.outcome) = gather ((p.upTo n).map Progress.outcome) := by
  obtain ⟨rs, last, taken, failure⟩ := ordered
  have front : (p.upTo n).map Progress.outcome =
      rs ++ (last.toList.map Progress.left ++ (p.waiting.take n).map Progress.left).map
        Progress.outcome := by
    simp [upTo, taken, Function.comp_def, Progress.outcome]
  rw [resultOf, front]
  cases all : gather rs with
  | ok xs => rw [failure, all, Progress.error?]
  | error e =>
    rw [failure, all, gather_append_of_error all]
    rfl

end

/-! All turns. -/

section

variable {p q : Pool (Logged ε (List α)) ε (List α)} {result : Except ε (List α)}

/-- What comes of a pool by some turns, if of the jobs that wait the first `n` are done. -/
structure Completes (workers : Nat) (p : Pool (Logged ε (List α)) ε (List α)) (ts : List Turn)
    (n : Nat) (told : List Notice) (result : Except ε (List α)) : Prop where
  woven : Interleaves ((p.upTo n).map Progress.untold) told
  first : ∀ e, p.failure = some e → result = .error e
  failed : ∀ e, result = .error e →
    p.failure = some e ∨ .error e ∈ (p.upTo n).map Progress.outcome
  found : ∀ xs, result = .ok xs → gather ((p.upTo n).map Progress.outcome) = .ok xs
  all : p.waiting.length ≤ n ∨ .close ∈ ts ∧ ∃ e, result = .error e
  inOrder : workers ≤ 1 → p.IsInOrder → told = (p.upTo n).flatMap Progress.untold ∧
    result = gather ((p.upTo n).map Progress.outcome)

theorem finishJobs_eq (xs : List (Progress (Logged ε (List α)) ε (List α))) :
    (finishJobs Logged.worker xs : Logged δ _) =
      ⟨xs.flatMap Progress.untold, .ok (xs.map Progress.outcome)⟩ := by
  induction xs with
  | nil => rfl
  | cons x xs ih =>
    rw [finishJobs, ih]
    cases x <;>
      simp [finishJob, Logged.worker, Bind.bind, Logged.bind, Pure.pure, Progress.untold,
        Progress.outcome]

theorem finish_eq (p : Pool (Logged ε (List α)) ε (List α)) :
    (p.finish Logged.worker : Logged δ _) =
      ⟨(p.upTo p.waiting.length).flatMap Progress.untold,
        .ok (p.resultOf ((p.upTo p.waiting.length).map Progress.outcome))⟩ := by
  rw [finish, finishJobs_eq, upTo, List.take_length]
  simp [Bind.bind, Logged.bind, Pure.pure]

theorem complete_cons {worker : Worker (Logged δ) (Logged ε (List α)) ε (List α)}
    (turned : p.turn worker workers t = ⟨ns, .ok q⟩) (ts : List Turn) :
    complete worker workers p (t :: ts) =
      ⟨ns ++ (complete worker workers q ts).notices, (complete worker workers q ts).result⟩ := by
  rw [complete, turns, turned, complete]
  simp only [Bind.bind, Logged.bind]
  cases (turns worker workers q ts).result with
  | error e => rfl
  | ok r => simp only [List.append_assoc]

theorem completes_nil (workers : Nat) (p : Pool (Logged ε (List α)) ε (List α)) :
    p.Completes workers [] p.waiting.length ((p.upTo p.waiting.length).flatMap Progress.untold)
      (p.resultOf ((p.upTo p.waiting.length).map Progress.outcome)) where
  woven := by
    rw [List.flatMap_def]
    exact .flatten _
  first e failed := by rw [resultOf, failed]
  failed e h := by
    rw [resultOf] at h
    split at h
    next f failed =>
      cases h
      exact Or.inl failed
    · exact Or.inr (mem_of_gather_eq_error h)
  found xs h := by
    rw [resultOf] at h
    split at h
    · cases h
    · exact h
  all := Or.inl (Nat.le_refl _)
  inOrder _ ordered := ⟨rfl, ordered.resultOf_eq⟩

/-- One more turn in front. -/
theorem Goes.completes (step : Goes workers p t ns q) (rest : q.Completes workers ts n told result) :
    ∃ n', p.Completes workers (t :: ts) n' (ns ++ told) result := by
  have noticed : .close ∈ ts ∧ (∃ e, result = .error e) →
      .close ∈ t :: ts ∧ ∃ e, result = .error e :=
    fun h => ⟨List.mem_cons_of_mem t h.1, h.2⟩
  obtain ⟨woven, first, failed, found, all, inOrder⟩ := rest
  replace inOrder single ordered := inOrder single (step.isInOrder single ordered)
  cases step with
  | passed => exact ⟨n, woven, first, failed, found, all.imp_right noticed, inOrder⟩
  | taken waits free =>
    rw [upTo_taken waits] at woven failed found inOrder
    refine ⟨n + 1, woven, first, failed, found, ?_, inOrder⟩
    rw [waits]
    exact all.imp Nat.succ_le_succ noticed
  | @told i m ms r here =>
    have kept : (p.record i (.left ⟨ms, r⟩)).failure = p.failure := Option.or_none
    rw [map_outcome_record (n := n) (x := .left ⟨ms, r⟩) here rfl] at failed found inOrder
    rw [upTo_record here, List.map_set] at woven
    refine ⟨n, .cons (i := i) ?_ woven, kept ▸ first, kept ▸ failed, found,
      all.imp_right noticed, fun single ordered => ?_⟩
    · rw [List.getElem?_map, getElem?_upTo here]
      rfl
    · obtain ⟨told_eq, result_eq⟩ := inOrder single ordered
      rw [ordered.flatMap_untold here, told_eq]
      exact ⟨rfl, result_eq⟩
  | @ended i r here =>
    rw [map_outcome_record (n := n) (x := .ended r) here rfl] at failed found inOrder
    have front : ((p.upTo n).map Progress.untold)[i]? = some [] := by
      rw [List.getElem?_map, getElem?_upTo here]
      rfl
    obtain ⟨inside, empty⟩ := List.getElem?_eq_some_iff.mp front
    have unchanged : ((p.record i (.ended r)).upTo n).map Progress.untold =
        (p.upTo n).map Progress.untold := by
      rw [upTo_record here, List.map_set]
      conv_rhs => rw [← List.set_getElem_self inside, empty]
      rfl
    rw [unchanged] at woven
    rw [List.flatMap_def, unchanged, ← List.flatMap_def] at inOrder
    refine ⟨n, woven, ?_, ?_, found, all.imp_right noticed, inOrder⟩
    · intro e h
      exact first e (by simp [record, h])
    · intro e h
      rcases failed e h with now | done
      · rcases Option.or_eq_some_iff.mp now with before | ⟨-, here'⟩
        · exact Or.inl before
        · have outcome := Progress.outcome_of_error? here'
          exact Or.inr (List.mem_map.mpr
            ⟨_, List.mem_of_getElem? (getElem?_upTo here), outcome⟩)
      · exact Or.inr done
  | closed closed =>
    rw [upTo_closed] at woven failed found inOrder
    exact ⟨0, woven, first, failed, found, Or.inr ⟨by simp, _, first _ closed⟩, inOrder⟩

theorem exists_completes (workers : Nat) (p : Pool (Logged ε (List α)) ε (List α))
    (ts : List Turn) : ∃ n told result,
      (complete Logged.worker workers p ts : Logged δ _) = ⟨told, .ok result⟩ ∧
        p.Completes workers ts n told result := by
  induction ts generalizing p with
  | nil =>
    refine ⟨_, _, _, ?_, completes_nil workers p⟩
    rw [complete, turns]
    exact finish_eq p
  | cons t ts ih =>
    obtain ⟨ns, q, turned, step⟩ := exists_goes workers p t
    obtain ⟨n, told, result, completed, rest⟩ := ih q
    obtain ⟨n', whole⟩ := step.completes rest
    exact ⟨n', ns ++ told, result, by rw [complete_cons turned, completed], whole⟩

end

/-! Jobs from their start to their end. -/

section

variable {σ : Schedule} {jobs : List (Logged ε (List α))} {result : Except ε (List α)}

/-- What comes of jobs by a schedule, if the first `n` are done: what they tell, woven together, and
what they result in, or the error of one of them. With a single worker they are done one after
another. -/
structure Does (σ : Schedule) (jobs : List (Logged ε (List α))) (n : Nat) (told : List Notice)
    (result : Except ε (List α)) : Prop where
  woven : Interleaves ((jobs.take n).map Logged.notices) told
  failed : ∀ e, result = .error e → ∃ job ∈ jobs.take n, job.result = .error e
  found : ∀ xs, result = .ok xs → gather (jobs.map Logged.result) = .ok xs
  all : jobs.length ≤ n ∨ .close ∈ σ.turns ∧ ∃ e, result = .error e
  inOrder : σ.workers ≤ 1 → told = (jobs.take n).flatMap Logged.notices ∧
    result = gather (jobs.map Logged.result)

theorem exists_run (σ : Schedule) (jobs : List (Logged ε (List α))) : ∃ n told result,
    (run Logged.worker σ jobs : Logged δ _) = ⟨told, .ok result⟩ ∧ Does σ jobs n told result := by
  obtain ⟨n, told, result, completed, whole⟩ :=
    exists_completes (δ := δ) σ.workers (ofJobs jobs) σ.turns
  have untold : ((ofJobs jobs).upTo n).map Progress.untold = (jobs.take n).map Logged.notices := by
    simp [upTo, ofJobs, Function.comp_def, Progress.untold]
  have outcome : ((ofJobs jobs).upTo n).map Progress.outcome =
      (jobs.take n).map Logged.result := by
    simp [upTo, ofJobs, Function.comp_def, Progress.outcome]
  obtain ⟨woven, -, failed, found, all, inOrder⟩ := whole
  rw [untold] at woven
  rw [outcome] at failed found inOrder
  rw [List.flatMap_def, untold, ← List.flatMap_def] at inOrder
  change jobs.length ≤ n ∨ _ at all
  have split : jobs.map Logged.result =
      (jobs.take n).map Logged.result ++ (jobs.drop n).map Logged.result := by
    rw [← List.map_append, List.take_append_drop]
  refine ⟨n, told, result, completed, woven, fun e h => ?_, fun xs h => ?_, all, fun single => ?_⟩
  · rcases failed e h with absent | here
    · cases absent
    · exact List.mem_map.mp here
  · rcases all with all | ⟨-, e, failing⟩
    · rw [← found xs h, List.take_of_length_le all]
    · rw [h] at failing
      cases failing
  · obtain ⟨told_eq, result_eq⟩ := inOrder single (isInOrder_ofJobs jobs)
    refine ⟨told_eq, ?_⟩
    rcases all with all | ⟨-, e, failing⟩
    · rw [result_eq, List.take_of_length_le all]
    · rw [split, gather_append_of_error (result_eq.symm.trans failing), failing]

namespace Does

/-- Without an error, all jobs are done. -/
theorem take_eq {xs : List α} (does : Does σ jobs n told (.ok xs)) : jobs.take n = jobs := by
  rcases does.all with all | ⟨-, e, failing⟩
  · exact List.take_of_length_le all
  · cases failing

/-- Whether there is a result, and which, is not up to the schedule. -/
theorem eq_ok_iff {xs : List α} (does : Does σ jobs n told result) :
    result = .ok xs ↔ gather (jobs.map Logged.result) = .ok xs := by
  refine ⟨does.found xs, fun whole => ?_⟩
  cases result with
  | ok ys => rw [← whole, does.found ys rfl]
  | error e =>
    obtain ⟨job, done, failing⟩ := does.failed e rfl
    obtain ⟨f, hf⟩ := gather_eq_error_of_mem
      (List.mem_map.mpr ⟨job, List.mem_of_mem_take done, failing⟩)
    rw [hf] at whole
    cases whole

end Does

end

end Pool

end TagOutline
