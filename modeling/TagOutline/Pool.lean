import TagOutline.Notice

/-!
# Pools of jobs

Jobs that some workers do at the same time. A worker that is free takes the job that has waited
longest, and a job that was taken goes on step by step. Whose turn it is, is up to a schedule: the
order of the steps, and so of all that is told on the way, is not given with the jobs.

The first error that comes up is the result. Once it is noticed, the jobs that still wait may be
given up. Those that were taken go on to their end all the same, though nothing comes of them.
Without an error the results are put together in the order of the jobs.
-/

namespace TagOutline

/-- What comes next in a pool. -/
inductive Turn where
  /-- A worker takes a job. -/
  | take
  /-- One more step of the job that was taken behind `place` others. -/
  | go (place : Nat)
  /-- An error is noticed, and the jobs that wait are given up. -/
  | close
  deriving DecidableEq, Repr

/-- How many workers there are, and the turns. A turn that cannot be taken is passed over, and what
is not done when the turns are over is done job by job. -/
structure Schedule where
  workers : Nat
  turns : List Turn
  deriving DecidableEq, Repr

/-- One job after another. -/
def Schedule.inTurn : Schedule :=
  ⟨1, []⟩

/-- How far a job has come. -/
inductive Progress (τ ε α : Type) where
  | left (job : τ)
  | ended (result : Except ε α)

namespace Progress

variable {τ ε α : Type}

def isLeft : Progress τ ε α → Bool
  | .left _ => true
  | .ended _ => false

/-- The error that a job has ended with. -/
def error? : Progress τ ε α → Option ε
  | .left _ => none
  | .ended (.ok _) => none
  | .ended (.error e) => some e

end Progress

/-- How jobs of some kind are done: one step, or all that is left. -/
structure Worker (m : Type → Type) (τ ε α : Type) where
  advance : τ → m (Progress τ ε α)
  finish : τ → m (Except ε α)

/-- The jobs that were taken, in the order in which they were, those that wait, and the first error
that has come up. -/
structure Pool (τ ε α : Type) where
  taken : List (Progress τ ε α)
  waiting : List τ
  failure : Option ε

/-- Several results one after another, or the first error. -/
def gather {ε α : Type} : List (Except ε (List α)) → Except ε (List α)
  | [] => .ok []
  | .error e :: _ => .error e
  | .ok found :: rest => (gather rest).map (found ++ ·)

namespace Pool

variable {m : Type → Type} [Monad m] {τ ε α : Type}

def ofJobs (jobs : List τ) : Pool τ ε α :=
  ⟨[], jobs, none⟩

/-- The number of workers that have a job. -/
def busy (p : Pool τ ε α) : Nat :=
  p.taken.countP Progress.isLeft

def take (workers : Nat) (p : Pool τ ε α) : Pool τ ε α :=
  match p.waiting with
  | [] => p
  | job :: jobs =>
    if p.busy < workers then { p with taken := p.taken ++ [.left job], waiting := jobs } else p

/-- Records how far the job at a place has come. -/
def record (p : Pool τ ε α) (place : Nat) (x : Progress τ ε α) : Pool τ ε α :=
  { p with taken := p.taken.set place x, failure := p.failure.or x.error? }

def close (p : Pool τ ε α) : Pool τ ε α :=
  if p.failure.isSome then { p with waiting := [] } else p

def turn (worker : Worker m τ ε α) (workers : Nat) (p : Pool τ ε α) : Turn → m (Pool τ ε α)
  | .take => pure (p.take workers)
  | .go place =>
    match p.taken[place]? with
    | some (.left job) => do
      let x ← worker.advance job
      return p.record place x
    | _ => pure p
  | .close => pure p.close

def turns (worker : Worker m τ ε α) (workers : Nat) (p : Pool τ ε α) :
    List Turn → m (Pool τ ε α)
  | [] => pure p
  | t :: ts => do
    let p ← p.turn worker workers t
    turns worker workers p ts

/-- Does what is left of a job. -/
def finishJob (worker : Worker m τ ε α) : Progress τ ε α → m (Except ε α)
  | .left job => worker.finish job
  | .ended result => pure result

/-- Does what is left of jobs, one after another. -/
def finishJobs (worker : Worker m τ ε α) : List (Progress τ ε α) → m (List (Except ε α))
  | [] => return []
  | x :: xs => do
    let result ← finishJob worker x
    let others ← finishJobs worker xs
    return result :: others

/-- The result of the whole, by what the jobs have ended with. -/
def resultOf (p : Pool τ ε (List α)) (results : List (Except ε (List α))) : Except ε (List α) :=
  match p.failure with
  | some e => .error e
  | none => gather results

/-- Does all that is left. -/
def finish (worker : Worker m τ ε (List α)) (p : Pool τ ε (List α)) : m (Except ε (List α)) := do
  let results ← finishJobs worker (p.taken ++ p.waiting.map .left)
  return p.resultOf results

/-- Takes the turns, and then does all that is left. -/
def complete (worker : Worker m τ ε (List α)) (workers : Nat) (p : Pool τ ε (List α))
    (ts : List Turn) : m (Except ε (List α)) := do
  let p ← turns worker workers p ts
  p.finish worker

/-- Does jobs by a schedule. -/
def run (worker : Worker m τ ε (List α)) (σ : Schedule) (jobs : List τ) : m (Except ε (List α)) :=
  complete worker σ.workers (.ofJobs jobs) σ.turns

end Pool

/-- Work that is known by what it tells and what it results in, as a job: it is told notice by
notice. A notice is told as a whole. -/
def Logged.worker {δ ε α : Type} : Worker (Logged δ) (Logged ε α) ε α where
  advance job :=
    match job.notices with
    | [] => pure (.ended job.result)
    | n :: ns => ⟨[n], .ok (.left ⟨ns, job.result⟩)⟩
  finish job := ⟨job.notices, .ok job.result⟩

end TagOutline
