import TagOutline.Pool

/-!
# Work at a console

A console shows a notice when it is told, if the print level lets it through at that moment. Work at
a console is done in steps, each of which can look at the print level and at all that was shown, and
between two of its steps other work may have been done at the same console.
-/

namespace TagOutline

/-- Work in steps, on something that other work can change between them. A step changes it at once,
and how the work goes on may depend on what it has become. -/
inductive Steps (κ α : Type) where
  | done (a : α)
  | step (act : κ → κ) (next : κ → Steps κ α)

namespace Steps

variable {κ ε α β : Type}

def bind : Steps κ α → (α → Steps κ β) → Steps κ β
  | .done a, f => f a
  | .step act next, f => .step act fun k => (next k).bind f

instance : Monad (Steps κ) where
  pure := .done
  bind := bind

/-- Does all steps, with no other work between them. -/
def run : Steps κ α → κ → α × κ
  | .done a, k => (a, k)
  | .step act next, k => (next (act k)).run (act k)

/-- Work in steps, as a job. -/
def worker : Worker (Steps κ) (Steps κ (Except ε α)) ε α where
  advance
    | .done result => .done (.ended result)
    | .step act next => .step act fun k => .done (.left (next k))
  finish job := job

end Steps

/-- The print level, and the notices that were shown. -/
structure Console where
  printLevel : Int
  shown : List Notice

namespace Console

/-- Work at a console, on data of its own. What was shown or changed before an error stays. -/
abbrev Work (σ ε : Type) :=
  ExceptT ε (StateT σ (Steps Console))

/-- What work leads to. -/
structure Outcome (σ ε α : Type) where
  result : Except ε α
  console : Console
  data : σ

variable {σ τ ε α β : Type}

/-- The steps of work that begins with some data. -/
def stepsFrom (s : σ) (x : Work σ ε α) : Steps Console (Except ε α × σ) :=
  StateT.run (ExceptT.run x) s

/-- Does work at a console. -/
def run (x : Work σ ε α) (c : Console) (s : σ) : Outcome σ ε α :=
  let ended := (stepsFrom s x).run c
  ⟨ended.1.1, ended.2, ended.1.2⟩

/-- Shows a notice, unless the print level is too low for it. -/
def tell (n : Notice) (c : Console) : Console :=
  if n.isShown c.printLevel then { c with shown := c.shown ++ [n] } else c

/-- Steps without data of their own. -/
def lift (x : Steps Console α) : Work σ ε α :=
  ExceptT.lift (StateT.lift x)

/-- Tells the console a notice. -/
def say (n : Notice) : Work σ ε Unit :=
  lift (.step (tell n) fun _ => .done ())

def data : Work σ ε σ :=
  get

def change (f : σ → σ) : Work σ ε Unit :=
  modify f

/-- Goes on with a result, or stops at its error. -/
def check (result : Except ε α) : Work σ ε α :=
  ExceptT.mk (pure result)

/-- The result of work that begins with some data. -/
def job (t : τ) (x : Work τ ε α) : Steps Console (Except ε α) := do
  let ended ← stepsFrom t x
  return ended.1

/-- Does work on other data at the same console. -/
def within (t : τ) (x : Work τ ε α) : Work σ ε α := do
  let result ← lift (job t x)
  check result

end Console

end TagOutline
