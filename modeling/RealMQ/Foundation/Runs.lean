import Mathlib

/- Finite runs of a partial labelled step. A label that is not enabled has no successor,
   so a run is a list of labels that are enabled one after another. -/
namespace RealMQ.Runs
variable {State Label Abstract : Type*}

def run (step : State → Label → Option State) : State → List Label → Option State
  | s, [] => some s
  | s, l :: ls => (step s l).bind fun t => run step t ls

def Reachable (step : State → Label → Option State) (start s : State) : Prop :=
  ∃ labels, run step start labels = some s

theorem run_cons_some {step : State → Label → Option State} {s t : State} {l : Label}
    {ls : List Label} :
    run step s (l :: ls) = some t ↔ ∃ u, step s l = some u ∧ run step u ls = some t := by
  simp [run, Option.bind_eq_some_iff]

theorem run_append (step : State → Label → Option State) (s : State) (ls ms : List Label) :
    run step s (ls ++ ms) = (run step s ls).bind fun t => run step t ms := by
  induction ls generalizing s with
  | nil => simp [run]
  | cons l ls ih =>
    simp only [List.cons_append, run]
    cases step s l with
    | none => rfl
    | some t => simpa using ih t

theorem run_map {Wide : Type*} (step : State → Label → Option State) (forget : Wide → Label)
    (s : State) (ls : List Wide) :
    run step s (ls.map forget) = run (fun s l => step s (forget l)) s ls := by
  induction ls generalizing s with
  | nil => rfl
  | cons l ls ih => simp only [List.map_cons, run, ih]

theorem reachable_step {step : State → Label → Option State} {s t : State} {l : Label}
    (moved : step s l = some t) : Reachable step s t :=
  ⟨[l], run_cons_some.mpr ⟨t, moved, rfl⟩⟩

theorem reachable_trans {step : State → Label → Option State} {s t u : State}
    (first : Reachable step s t) (second : Reachable step t u) : Reachable step s u := by
  obtain ⟨ls, here⟩ := first
  obtain ⟨ms, there⟩ := second
  exact ⟨ls ++ ms, by rw [run_append, here]; exact there⟩

/-- The induction every safety result uses: what one step keeps, a whole run keeps. -/
theorem run_invariant {step : State → Label → Option State} {inv : State → Prop}
    (kept : ∀ s l t, inv s → step s l = some t → inv t)
    {s t : State} {ls : List Label} (start : inv s) (r : run step s ls = some t) : inv t := by
  induction ls generalizing s with
  | nil => simp only [run, Option.some.injEq] at r; exact r ▸ start
  | cons l ls ih =>
    obtain ⟨u, first, rest⟩ := run_cons_some.mp r
    exact ih (kept s l u start first) rest

theorem reachable_invariant {step : State → Label → Option State} {inv : State → Prop}
    (kept : ∀ s l t, inv s → step s l = some t → inv t)
    {start s : State} (base : inv start) (reached : Reachable step start s) : inv s := by
  obtain ⟨_, r⟩ := reached
  exact run_invariant kept base r

/-- A goal is within reach where, until then, some step brings it nearer. -/
theorem reachable_goal {step : State → Label → Option State} {inv goal : State → Prop}
    {distance : State → ℕ}
    (nearer : ∀ s, inv s → goal s ∨ ∃ l t, step s l = some t ∧ inv t ∧ distance t < distance s)
    {s : State} (here : inv s) : ∃ t, Reachable step s t ∧ inv t ∧ goal t := by
  induction far : distance s using Nat.strongRecOn generalizing s with
  | ind n ih =>
    rcases nearer s here with done | ⟨l, t, moved, kept, less⟩
    · exact ⟨s, ⟨[], rfl⟩, here, done⟩
    · obtain ⟨u, onward, final, done⟩ := ih (distance t) (far ▸ less) kept rfl
      exact ⟨u, reachable_trans (reachable_step moved) onward, final, done⟩

/-- Every step of the run is taken where cond allows its label. -/
def Meets (step : State → Label → Option State) (cond : State → Label → Prop) :
    State → List Label → Prop
  | _, [] => True
  | s, l :: ls => cond s l ∧ ∀ t, step s l = some t → Meets step cond t ls

theorem meets_append {step : State → Label → Option State} {cond : State → Label → Prop} {s t : State}
    {ls ms : List Label} (first : Meets step cond s ls) (r : run step s ls = some t)
    (second : Meets step cond t ms) : Meets step cond s (ls ++ ms) := by
  induction ls generalizing s with
  | nil =>
    obtain rfl := Option.some.inj r
    exact second
  | cons l ls ih =>
    obtain ⟨u, moved, rest⟩ := run_cons_some.mp r
    refine ⟨first.1, ?_⟩
    intro v other
    obtain rfl := Option.some.inj (moved.symm.trans other)
    exact ih (first.2 u moved) rest

/-- Where cond says exactly when a step keeps the invariant, it holds all along a run exactly
    when every step meets cond. -/
theorem invariant_iff_meets {step : State → Label → Option State} {inv : State → Prop}
    {cond : State → Label → Prop} {valid : Label → Prop}
    (exact : ∀ s l t, inv s → valid l → step s l = some t → (inv t ↔ cond s l))
    {s t : State} {ls : List Label} (start : inv s) (labels : ∀ l ∈ ls, valid l)
    (r : run step s ls = some t) :
    (∀ k u, run step s (ls.take k) = some u → inv u) ↔ Meets step cond s ls := by
  induction ls generalizing s with
  | nil =>
    refine iff_of_true ?_ trivial
    intro k u reached
    simp only [List.take_nil, run, Option.some.injEq] at reached
    exact reached ▸ start
  | cons l ls ih =>
    obtain ⟨u, first, rest⟩ := run_cons_some.mp r
    have later : ∀ l ∈ ls, valid l := fun l member => labels l (List.mem_cons_of_mem _ member)
    have here := exact s l u start (labels l List.mem_cons_self) first
    constructor
    · intro always
      have next : inv u := always 1 u (by simp [run, first])
      refine ⟨here.mp next, ?_⟩
      intro t' moved
      obtain rfl := Option.some.inj (first.symm.trans moved)
      apply (ih next later rest).mp
      intro k v reached
      exact always (k + 1) v (run_cons_some.mpr ⟨u, first, reached⟩)
    · rintro ⟨allowed, tail⟩
      have next : inv u := here.mpr allowed
      have always := (ih next later rest).mpr (tail u first)
      intro k v reached
      cases k with
      | zero =>
        simp only [List.take_zero, run, Option.some.injEq] at reached
        exact reached ▸ start
      | succ k =>
        obtain ⟨w, moved, reached⟩ := run_cons_some.mp reached
        obtain rfl := Option.some.inj (first.symm.trans moved)
        exact always k v reached

/-- Where cond says exactly when a label is enabled and keeps the invariant, a run is never stuck
    and never leaves the invariant exactly when all its labels meet cond. -/
theorem run_keeps_iff {step : State → Label → Option State} {inv : State → Prop}
    {cond : Label → Prop}
    (exact : ∀ s l, inv s → ((∃ t, step s l = some t ∧ inv t) ↔ cond l))
    {s : State} (ls : List Label) (start : inv s) :
    (∀ k, ∃ t, run step s (ls.take k) = some t ∧ inv t) ↔ ∀ l ∈ ls, cond l := by
  induction ls generalizing s with
  | nil =>
    refine iff_of_true ?_ (fun l member => absurd member List.not_mem_nil)
    intro k
    exact ⟨s, by rw [List.take_nil]; rfl, start⟩
  | cons l ls ih =>
    have here := exact s l start
    rw [List.forall_mem_cons]
    constructor
    · intro always
      obtain ⟨u, reached, next⟩ := always 1
      obtain ⟨u', first, rest⟩ := run_cons_some.mp reached
      obtain rfl : u' = u := Option.some.inj rest
      refine ⟨here.mp ⟨u', first, next⟩, (ih next).mp ?_⟩
      intro k
      obtain ⟨t, reached, kept⟩ := always (k + 1)
      obtain ⟨v, moved, rest⟩ := run_cons_some.mp reached
      obtain rfl := Option.some.inj (first.symm.trans moved)
      exact ⟨t, rest, kept⟩
    · rintro ⟨allowed, later⟩ k
      obtain ⟨u, first, next⟩ := here.mpr allowed
      cases k with
      | zero => exact ⟨s, rfl, start⟩
      | succ k =>
        obtain ⟨t, rest, kept⟩ := (ih next).mpr later k
        exact ⟨t, run_cons_some.mpr ⟨u, first, rest⟩, kept⟩

/-- Forward simulation: if each step of the run is matched by abstract steps, so is the run. -/
theorem run_simulated {step : State → Label → Option State} {inv : State → Prop}
    {abs : State → Abstract} {next : Abstract → Abstract → Prop}
    (kept : ∀ s l t, inv s → step s l = some t → inv t)
    (matched : ∀ s l t, inv s → step s l = some t →
      Relation.ReflTransGen next (abs s) (abs t))
    {s t : State} {ls : List Label} (start : inv s) (r : run step s ls = some t) :
    Relation.ReflTransGen next (abs s) (abs t) := by
  induction ls generalizing s with
  | nil => simp only [run, Option.some.injEq] at r; exact r ▸ .refl
  | cons l ls ih =>
    obtain ⟨u, first, rest⟩ := run_cons_some.mp r
    exact (matched s l u start first).trans (ih (kept s l u start first) rest)

/-- Both levels take the same labels: each step of the one has its match in the other. -/
theorem run_lockstep {step : State → Label → Option State}
    {lower : Abstract → Label → Option Abstract} {rel : State → Abstract → Prop}
    (matched : ∀ s l t a, rel s a → step s l = some t → ∃ b, lower a l = some b ∧ rel t b)
    {s t : State} {ls : List Label} {a : Abstract} (start : rel s a) (r : run step s ls = some t) :
    ∃ b, run lower a ls = some b ∧ rel t b := by
  induction ls generalizing s a with
  | nil =>
    simp only [run, Option.some.injEq] at r
    subst r
    exact ⟨a, rfl, start⟩
  | cons l ls ih =>
    obtain ⟨u, first, rest⟩ := run_cons_some.mp r
    obtain ⟨b, here, related⟩ := matched s l u a start first
    obtain ⟨c, later, final⟩ := ih related rest
    exact ⟨c, run_cons_some.mpr ⟨b, here, later⟩, final⟩

/-- Refinement through a log: a step appends what a sequential specification does in its
    place, so the whole log is a run of the specification. -/
theorem run_logged {Op : Type*} {step : State → Label → Option State}
    {spec : Abstract → Op → Option Abstract} {log : State → List Op}
    {rel : State → Abstract → Prop} {cond : State → Label → Prop}
    (matched : ∀ s l t a, rel s a → cond s l → step s l = some t →
      ∃ ops b, log t = log s ++ ops ∧ run spec a ops = some b ∧ rel t b)
    {s t : State} {ls : List Label} {a : Abstract} (start : rel s a) (meets : Meets step cond s ls)
    (r : run step s ls = some t) :
    ∃ ops b, log t = log s ++ ops ∧ run spec a ops = some b ∧ rel t b := by
  induction ls generalizing s a with
  | nil =>
    simp only [run, Option.some.injEq] at r
    subst r
    exact ⟨[], a, by simp, rfl, start⟩
  | cons l ls ih =>
    obtain ⟨u, first, rest⟩ := run_cons_some.mp r
    obtain ⟨ops, b, here, specified, related⟩ := matched s l u a start meets.1 first
    obtain ⟨ops', c, later, continued, final⟩ := ih related (meets.2 u first) rest
    refine ⟨ops ++ ops', c, by rw [later, here, List.append_assoc], ?_, final⟩
    rw [run_append, specified]
    exact continued

end RealMQ.Runs
