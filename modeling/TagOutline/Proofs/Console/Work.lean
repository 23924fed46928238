import TagOutline.Console.Work

/-!
# What work at a console tells

Work at a console can look at the print level and at all that was shown. `Tells` says of such work
that it does neither: its result, the data that it leaves and what it tells are the same at every
console, whatever else is shown there between two of its steps, and the print level decides only
which of the notices are shown. Then a higher print level shows all that a lower one shows, in the
same order, and changes nothing else.
-/

namespace TagOutline

variable {σ τ ε ε' α β : Type}

namespace Console

/-- The console once it was told some notices. -/
def showing (c : Console) (ns : List Notice) : Console :=
  { c with shown := c.shown ++ ns.filter (Notice.isShown c.printLevel) }

@[simp] theorem showing_nil (c : Console) : c.showing [] = c := by
  simp [showing]

theorem showing_tell (c : Console) (n : Notice) (ns : List Notice) :
    (tell n c).showing ns = c.showing (n :: ns) := by
  rw [tell, showing, showing]
  cases shown : n.isShown c.printLevel <;> simp [shown]

end Console

namespace Steps

/-- Each step tells a notice, whatever the console shows by then. In the end there is something of
which `Q` holds. -/
inductive Tells (Q : α → Prop) : Steps Console α → List Notice → Prop where
  | done {a : α} (result : Q a) : Tells Q (.done a) []
  | step {n : Notice} {ns : List Notice} {next : Console → Steps Console α}
      (others : ∀ c, Tells Q (next c) ns) : Tells Q (.step (Console.tell n) next) (n :: ns)

variable {Q : α → Prop} {R : β → Prop} {x : Steps Console α} {f : α → Steps Console β}
  {ns ms : List Notice}

theorem Tells.bind (h : x.Tells Q ns) (next : ∀ a, Q a → (f a).Tells R ms) :
    (x >>= f).Tells R (ns ++ ms) := by
  induction h with
  | done result => exact next _ result
  | step others ih => exact .step ih

/-- Where nothing more is told. -/
theorem Tells.bind_silent (h : x.Tells Q ns) (next : ∀ a, Q a → (f a).Tells R []) :
    (x >>= f).Tells R ns := by
  have whole := h.bind next
  rwa [List.append_nil] at whole

theorem Tells.run (h : x.Tells Q ns) (c : Console) :
    Q (x.run c).1 ∧ (x.run c).2 = c.showing ns := by
  induction h generalizing c with
  | done result => exact ⟨result, c.showing_nil.symm⟩
  | @step n ns next others ih =>
    obtain ⟨result, shown⟩ := ih (c.tell n) (c.tell n)
    exact ⟨result, shown.trans (Console.showing_tell c n ns)⟩

end Steps

namespace Console

/-- Work that is the same at every console: from data `s` it has the result that is told, tells the
notices that are told, and leaves data `s'`. -/
def Tells (x : Work σ ε α) (s : σ) (told : Logged ε α) (s' : σ) : Prop :=
  (stepsFrom s x).Tells (· = (told.result, s')) told.notices

/-! What work tells. -/

theorem tells_pure (a : α) (s : σ) : Tells (pure a : Work σ ε α) s ⟨[], .ok a⟩ s :=
  .done rfl

theorem tells_throw (e : ε) (s : σ) : Tells (throw e : Work σ ε α) s ⟨[], .error e⟩ s :=
  .done rfl

theorem tells_check (result : Except ε α) (s : σ) : Tells (check result) s ⟨[], result⟩ s :=
  .done rfl

theorem tells_data (s : σ) : Tells (data : Work σ ε σ) s ⟨[], .ok s⟩ s :=
  .done rfl

theorem tells_change (f : σ → σ) (s : σ) :
    Tells (change f : Work σ ε Unit) s ⟨[], .ok ()⟩ (f s) :=
  .done rfl

theorem tells_lift {x : Steps Console α} {a : α} {ns : List Notice} (h : x.Tells (· = a) ns)
    (s : σ) : Tells (lift x : Work σ ε α) s ⟨ns, .ok a⟩ s := by
  have whole : (x >>= fun b => pure (b, s) : Steps Console (α × σ)).Tells (· = (a, s)) ns :=
    h.bind_silent fun b hb => .done (by rw [hb])
  exact whole.bind_silent fun b hb => .done (by rw [hb])

/-- The only work that looks at the print level. -/
theorem tells_say (n : Notice) (s : σ) : Tells (say n : Work σ ε Unit) s ⟨[n], .ok ()⟩ s :=
  tells_lift (.step fun _ => .done rfl) s

section

variable {x : Work σ ε α} {f : α → Work σ ε β} {s s' s'' : σ} {a : α} {e : ε} {ns ms : List Notice}

theorem Tells.run {told : Logged ε α} (h : Tells x s told s') (c : Console) :
    Console.run x c s = ⟨told.result, c.showing told.notices, s'⟩ := by
  obtain ⟨result, shown⟩ := Steps.Tells.run h c
  rw [Console.run, result, shown]

/-- Work that was told apart by its result. -/
theorem Tells.of_result {told : Logged ε α} {r : Except ε α} (h : Tells x s told s')
    (result : told.result = r) : Tells x s ⟨told.notices, r⟩ s' := by
  rw [← result]
  exact h

theorem stepsFrom_bind (s : σ) (x : Work σ ε α) (f : α → Work σ ε β) :
    stepsFrom s (x >>= f) = stepsFrom s x >>= fun ended => ExceptT.bindCont f ended.1 ended.2 :=
  rfl

theorem Tells.bind_ok {r : Except ε β} (first : Tells x s ⟨ns, .ok a⟩ s')
    (next : Tells (f a) s' ⟨ms, r⟩ s'') : Tells (x >>= f) s ⟨ns ++ ms, r⟩ s'' := by
  rw [Tells, stepsFrom_bind]
  refine Steps.Tells.bind first ?_
  rintro _ rfl
  exact next

/-- Work behind which nothing more is told. -/
theorem Tells.bind_silent {r : Except ε β} (first : Tells x s ⟨ns, .ok a⟩ s')
    (next : Tells (f a) s' ⟨[], r⟩ s'') : Tells (x >>= f) s ⟨ns, r⟩ s'' := by
  have whole := first.bind_ok next
  rwa [List.append_nil] at whole

theorem Tells.bind_error (failed : Tells x s ⟨ns, .error e⟩ s') :
    Tells (x >>= f) s ⟨ns, .error e⟩ s' := by
  rw [Tells, stepsFrom_bind]
  refine Steps.Tells.bind_silent failed ?_
  rintro _ rfl
  exact .done rfl

theorem Tells.bind_pure {told : Logged ε α} (h : Tells x s told s') (g : α → β) :
    Tells (x >>= fun a => pure (g a)) s ⟨told.notices, told.result.map g⟩ s' := by
  obtain ⟨ns, r⟩ := told
  cases r with
  | ok a => exact h.bind_silent (tells_pure (g a) s')
  | error e => exact h.bind_error

theorem stepsFrom_tryCatch (s : σ) (x : Work σ ε α) (g : ε → Work σ ε α) :
    stepsFrom s (tryCatch x g) = stepsFrom s x >>= fun ended =>
      match ended.1 with
      | .ok a => pure (.ok a, ended.2)
      | .error e => stepsFrom ended.2 (g e) := by
  refine congrArg (stepsFrom s x >>= ·) (funext fun ended => ?_)
  obtain ⟨result, s'⟩ := ended
  cases result <;> rfl

theorem Tells.catch_ok {g : ε → Work σ ε α} (done : Tells x s ⟨ns, .ok a⟩ s') :
    Tells (tryCatch x g) s ⟨ns, .ok a⟩ s' := by
  rw [Tells, stepsFrom_tryCatch]
  refine Steps.Tells.bind_silent done ?_
  rintro _ rfl
  exact .done rfl

theorem Tells.catch_error {g : ε → Work σ ε α} {r : Except ε α}
    (failed : Tells x s ⟨ns, .error e⟩ s') (handled : Tells (g e) s' ⟨ms, r⟩ s'') :
    Tells (tryCatch x g) s ⟨ns ++ ms, r⟩ s'' := by
  rw [Tells, stepsFrom_tryCatch]
  refine Steps.Tells.bind failed ?_
  rintro _ rfl
  exact handled

theorem Tells.adapt {told : Logged ε α} (h : Tells x s told s') (g : ε → ε') :
    Tells (ExceptT.adapt g x) s (told.mapError g) s' := by
  refine Steps.Tells.bind_silent h ?_
  rintro _ rfl
  exact .done rfl

theorem Tells.job {t t' : τ} {y : Work τ ε α} {told : Logged ε α} (h : Tells y t told t') :
    (Console.job t y).Tells (· = told.result) told.notices := by
  refine Steps.Tells.bind_silent h ?_
  rintro _ rfl
  exact .done rfl

theorem Tells.within {t t' : τ} {y : Work τ ε α} {told : Logged ε α} (h : Tells y t told t')
    (s : σ) : Tells (Console.within t y) s told s :=
  (tells_lift h.job s).bind_silent (tells_check told.result s)

/-! What is shown. -/

/-- Work that print levels have no influence on. At each of them it leads to what is told, and of
the notices that are told those are shown that the level lets through, line by line. So two levels
give the same result and the same data, and the lower one shows the notices of the higher one that
it lets through. -/
structure IsLevelFree (x : Work σ ε α) (s : σ) (told : Logged ε α) (s' : σ) : Prop where
  outcome (p : Int) :
    run x ⟨p, []⟩ s = ⟨told.result, ⟨p, told.notices.filter (Notice.isShown p)⟩, s'⟩
  text (p : Int) : String.join ((run x ⟨p, []⟩ s).console.shown.map Notice.display) =
    Notice.shown p told.notices
  same (p q : Int) : (run x ⟨p, []⟩ s).result = (run x ⟨q, []⟩ s).result ∧
    (run x ⟨p, []⟩ s).data = (run x ⟨q, []⟩ s).data
  nested (p q : Int) (le : p ≤ q) : (run x ⟨p, []⟩ s).console.shown =
    (run x ⟨q, []⟩ s).console.shown.filter fun n => n.level.rank ≤ p

theorem Tells.isLevelFree {told : Logged ε α} (h : Tells x s told s') :
    IsLevelFree x s told s' := by
  have outcome (p : Int) :
      Console.run x ⟨p, []⟩ s = ⟨told.result, ⟨p, told.notices.filter (Notice.isShown p)⟩, s'⟩ :=
    h.run ⟨p, []⟩
  refine ⟨outcome, ?_, ?_, ?_⟩
  · intro p
    rw [outcome p, Notice.shown]
  · intro p q
    rw [outcome p, outcome q]
    exact ⟨rfl, rfl⟩
  · intro p q le
    rw [outcome p, outcome q]
    show _ = (told.notices.filter (Notice.isShown q)).filter _
    rw [List.filter_filter]
    apply List.filter_congr
    intro n _
    rw [Bool.eq_iff_iff]
    simp only [Notice.isShown, decide_eq_true_eq, Bool.and_eq_true]
    exact ⟨fun h => ⟨h, Int.le_trans h le⟩, fun h => h.1⟩

end

end Console

end TagOutline
