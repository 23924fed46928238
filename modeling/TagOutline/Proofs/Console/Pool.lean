import Mathlib.Data.List.Forall2
import TagOutline.Proofs.Console.Work

/-!
# Pools at a console

Jobs that are done at a console, each known by what it tells. A turn of their pool is a turn of the
pool of what they tell, with the same notice told on the way, whatever the console shows. So by the
same schedule they tell the same and have the same result.
-/

namespace TagOutline

variable {δ ε α β γ : Type}

section Lists

variable {R : α → β → Prop} {as : List α} {bs : List β} {a : α} {b : β}

theorem forall₂_set (h : List.Forall₂ R as bs) (related : R a b) (i : Nat) :
    List.Forall₂ R (as.set i a) (bs.set i b) := by
  induction h generalizing i with
  | nil => exact .nil
  | cons first others ih =>
    cases i with
    | zero => exact .cons related others
    | succ i => exact .cons first (ih i)

theorem rel_getElem? (h : List.Forall₂ R as bs) (i : Nat) : Option.Rel R as[i]? bs[i]? := by
  induction h generalizing i with
  | nil => exact .none
  | cons first others ih =>
    cases i with
    | zero => exact .some first
    | succ i => simpa using ih i

end Lists

/-- Steps that tell a console what is told, and end with a result that is related to what comes of
it. -/
def Steps.Follows (R : α → β → Prop) (x : Steps Console α) (y : Logged δ β) : Prop :=
  ∃ b, y.result = .ok b ∧ x.Tells (R · b) y.notices

namespace Steps

variable {R : α → β → Prop}

theorem follows_pure {a : α} {b : β} (related : R a b) :
    Follows R (pure a) (pure b : Logged δ β) :=
  ⟨b, rfl, .done related⟩

theorem Follows.bind {α' β' : Type} {S : α' → β' → Prop} {x : Steps Console α} {y : Logged δ β}
    {f : α → Steps Console α'} {g : β → Logged δ β'} (h : Follows R x y)
    (next : ∀ a b, R a b → Follows S (f a) (g b)) : Follows S (x >>= f) (y >>= g) := by
  obtain ⟨b, hb, tells⟩ := h
  -- The steps end somewhere, so there is something that goes on.
  obtain ⟨related, -⟩ := tells.run ⟨0, []⟩
  obtain ⟨b', hb', -⟩ := next _ b related
  have whole : y >>= g = ⟨y.notices ++ (g b).notices, .ok b'⟩ := by
    simp only [Bind.bind, Logged.bind, hb, hb']
  rw [Follows, whole]
  refine ⟨b', rfl, tells.bind fun a related => ?_⟩
  obtain ⟨c, hc, others⟩ := next a b related
  rw [hb'] at hc
  cases hc
  exact others

end Steps

namespace Pool

open Steps

/-- How far a job has come, and how far what it tells has. -/
inductive Matches : Progress (Steps Console (Except ε α)) ε α → Progress (Logged ε α) ε α → Prop
  | left {x : Steps Console (Except ε α)} {told : Logged ε α}
    (tells : x.Tells (· = told.result) told.notices) : Matches (.left x) (.left told)
  | ended (r : Except ε α) : Matches (.ended r) (.ended r)

/-- Pools that have come as far. -/
structure Shows (p : Pool (Steps Console (Except ε α)) ε α) (q : Pool (Logged ε α) ε α) : Prop where
  taken : List.Forall₂ Matches p.taken q.taken
  waiting : List.Forall₂ (fun x told => x.Tells (· = told.result) told.notices) p.waiting q.waiting
  failure : p.failure = q.failure

section

variable {p : Pool (Steps Console (Except ε α)) ε α} {q : Pool (Logged ε α) ε α}

theorem Shows.busy_eq (h : Shows p q) : p.busy = q.busy := by
  obtain ⟨taken, -, -⟩ := h
  obtain ⟨ptaken, pwaiting, pfailure⟩ := p
  obtain ⟨qtaken, qwaiting, qfailure⟩ := q
  unfold busy
  dsimp only at taken ⊢
  induction taken with
  | nil => rfl
  | cons first others ih =>
    rw [List.countP_cons, List.countP_cons, ih]
    cases first <;> rfl

theorem Shows.take (h : Shows p q) (workers : Nat) : Shows (p.take workers) (q.take workers) := by
  have same := h.busy_eq
  obtain ⟨taken, waiting, failure⟩ := h
  obtain ⟨ptaken, pwaiting, pfailure⟩ := p
  obtain ⟨qtaken, qwaiting, qfailure⟩ := q
  unfold Pool.take
  cases waiting with
  | nil => exact ⟨taken, .nil, failure⟩
  | cons first others =>
    dsimp only
    rw [same]
    split
    · exact ⟨List.rel_append taken (.cons (.left first) .nil), others, failure⟩
    · exact ⟨taken, .cons first others, failure⟩

theorem Shows.record (h : Shows p q) {x : Progress (Steps Console (Except ε α)) ε α}
    {y : Progress (Logged ε α) ε α} (related : Matches x y) (i : Nat) :
    Shows (p.record i x) (q.record i y) where
  taken := forall₂_set h.taken related i
  waiting := h.waiting
  failure := by
    have same : x.error? = y.error? := by
      cases related with
      | left tells => rfl
      | ended r => cases r <;> rfl
    rw [Pool.record, Pool.record, h.failure, same]

theorem Shows.close (h : Shows p q) : Shows p.close q.close := by
  have same : p.failure.isSome = q.failure.isSome := by rw [h.failure]
  unfold Pool.close
  rw [same]
  split
  · exact ⟨h.taken, .nil, h.failure⟩
  · exact h

/-- A turn tells the notice that the job tells whose turn it is. -/
theorem follows_turn (h : Shows p q) (workers : Nat) (t : Turn) :
    Follows Shows (p.turn Steps.worker workers t)
      (q.turn Logged.worker workers t : Logged δ _) := by
  cases t with
  | take => exact follows_pure (h.take workers)
  | close => exact follows_pure h.close
  | go i =>
    have here := rel_getElem? h.taken i
    unfold Pool.turn
    dsimp only
    generalize p.taken[i]? = x at here
    generalize q.taken[i]? = y at here
    cases here with
    | none => exact follows_pure h
    | some related =>
      cases related with
      | ended r => exact follows_pure h
      | @left x told tells =>
        obtain ⟨notices, result⟩ := told
        cases tells with
        | done ended =>
          cases ended
          exact follows_pure (h.record (.ended _) i)
        | step others =>
          refine ⟨_, rfl, .step fun c => .done ?_⟩
          exact h.record (.left (others c)) i

theorem follows_turns (h : Shows p q) (workers : Nat) (ts : List Turn) :
    Follows Shows (turns Steps.worker workers p ts)
      (turns Logged.worker workers q ts : Logged δ _) := by
  induction ts generalizing p q with
  | nil => exact follows_pure h
  | cons t ts ih => exact (follows_turn h workers t).bind fun _ _ stands => ih stands

theorem follows_finishJob {x : Progress (Steps Console (Except ε α)) ε α}
    {y : Progress (Logged ε α) ε α} (h : Matches x y) :
    Follows (· = ·) (finishJob Steps.worker x) (finishJob Logged.worker y : Logged δ _) := by
  cases h with
  | left tells => exact ⟨_, rfl, tells⟩
  | ended r => exact follows_pure rfl

theorem follows_finishJobs {xs : List (Progress (Steps Console (Except ε α)) ε α)}
    {ys : List (Progress (Logged ε α) ε α)} (h : List.Forall₂ Matches xs ys) :
    Follows (· = ·) (finishJobs Steps.worker xs)
      (finishJobs Logged.worker ys : Logged δ _) := by
  induction h with
  | nil => exact follows_pure rfl
  | cons first others ih =>
    refine (follows_finishJob first).bind ?_
    rintro result _ rfl
    refine ih.bind ?_
    rintro results _ rfl
    exact follows_pure rfl

end

/-- Jobs at a console tell what they tell by the same schedule without one. -/
theorem follows_run {jobs : List (Steps Console (Except ε (List α)))}
    {told : List (Logged ε (List α))}
    (h : List.Forall₂ (fun x told => x.Tells (· = told.result) told.notices) jobs told)
    (σ : Schedule) :
    Follows (· = ·) (run Steps.worker σ jobs) (run Logged.worker σ told : Logged δ _) := by
  have start : Shows (ofJobs jobs) (ofJobs told) := ⟨.nil, h, rfl⟩
  refine (follows_turns start σ.workers σ.turns).bind fun p q stands => ?_
  have left : List.Forall₂ Matches (p.taken ++ p.waiting.map .left)
      (q.taken ++ q.waiting.map .left) :=
    List.rel_append stands.taken (List.rel_map (fun _ _ tells => .left tells) stands.waiting)
  refine (follows_finishJobs left).bind ?_
  rintro results _ rfl
  refine follows_pure ?_
  rw [resultOf, resultOf, stands.failure]

end Pool

end TagOutline
