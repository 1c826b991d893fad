import Mathlib.Data.List.Basic

/-!
Finite histories of a machine given by a partial step function. An action
carries everything the environment decides, so a list of actions is one run and
quantifying over lists quantifies over every interleaving. `Always` speaks about
every state reached, the first one included; `Admits` about every state together
with the action taken there.
-/
namespace L2Switch.Histories

universe u v
variable {State : Type u} {Act : Type v}

def run (step : State → Act → Option State) : State → List Act → Option State
  | state, [] => some state
  | state, act :: rest => (step state act).bind fun next => run step next rest

def Always (step : State → Act → Option State) (good : State → Prop) :
    State → List Act → Prop
  | state, [] => good state
  | state, act :: rest =>
      good state ∧ ∀ next, step state act = some next → Always step good next rest

def Admits (step : State → Act → Option State) (guard : State → Act → Prop) :
    State → List Act → Prop
  | _, [] => True
  | state, act :: rest =>
      guard state act ∧ ∀ next, step state act = some next → Admits step guard next rest

@[simp] theorem run_nil (step : State → Act → Option State) (state : State) :
    run step state [] = some state := rfl

theorem run_cons (step : State → Act → Option State) (state : State) (act : Act)
    (rest : List Act) :
    run step state (act :: rest) = (step state act).bind fun next => run step next rest := rfl

theorem run_append (step : State → Act → Option State) (state : State)
    (before after : List Act) :
    run step state (before ++ after) =
      (run step state before).bind fun middle => run step middle after := by
  induction before generalizing state with
  | nil => rfl
  | cons act rest ih =>
      simp only [List.cons_append, run_cons]
      cases step state act with
      | none => rfl
      | some next => exact ih next

theorem always_here (step : State → Act → Option State) (good : State → Prop)
    (state : State) (acts : List Act) (always : Always step good state acts) :
    good state := by
  cases acts with
  | nil => exact always
  | cons act rest => exact always.1

/-- The recursive reading agrees with the usual one: every prefix of the run
that can be executed ends in a good state. -/
theorem always_iff_prefix (step : State → Act → Option State) (good : State → Prop)
    (state : State) (acts : List Act) :
    Always step good state acts ↔
      ∀ before after reached, acts = before ++ after →
        run step state before = some reached → good reached := by
  induction acts generalizing state with
  | nil =>
      constructor
      · intro here before after reached split executed
        obtain ⟨rfl, rfl⟩ := List.append_eq_nil_iff.mp split.symm
        cases executed
        exact here
      · intro prefixes
        exact prefixes [] [] state rfl rfl
  | cons act rest ih =>
      constructor
      · rintro ⟨here, later⟩ before after reached split executed
        cases before with
        | nil => cases executed; exact here
        | cons first before =>
            obtain ⟨rfl, rfl⟩ := List.cons_eq_cons.mp split
            rw [run_cons] at executed
            obtain ⟨next, stepped, tail⟩ := Option.bind_eq_some_iff.mp executed
            exact (ih next).mp (later next stepped) before after reached rfl tail
      · intro prefixes
        refine ⟨prefixes [] (act :: rest) state rfl rfl, fun next stepped => ?_⟩
        refine (ih next).mpr fun before after reached split executed => ?_
        refine prefixes (act :: before) after reached (by simp [split]) ?_
        rw [run_cons, stepped]
        exact executed

theorem always_reached (step : State → Act → Option State) (good : State → Prop)
    (state reached : State) (acts : List Act) (always : Always step good state acts)
    (executed : run step state acts = some reached) : good reached := by
  have prefixes := always_iff_prefix step good state acts
  exact prefixes.mp always acts [] reached (List.append_nil acts).symm executed

theorem run_invariant (step : State → Act → Option State) (inv : State → Prop)
    (keeps : ∀ state act next, inv state → step state act = some next → inv next)
    (state reached : State) (acts : List Act) (start : inv state)
    (executed : run step state acts = some reached) : inv reached := by
  induction acts generalizing state with
  | nil => cases executed; exact start
  | cons act rest ih =>
      rw [run_cons] at executed
      obtain ⟨next, stepped, tail⟩ := Option.bind_eq_some_iff.mp executed
      exact ih next (keeps state act next start stepped) tail

theorem always_of_invariant (step : State → Act → Option State) (inv good : State → Prop)
    (keeps : ∀ state act next, inv state → step state act = some next → inv next)
    (sound : ∀ state, inv state → good state)
    (state : State) (acts : List Act) (start : inv state) : Always step good state acts := by
  induction acts generalizing state with
  | nil => exact sound state start
  | cons act rest ih =>
      exact ⟨sound state start, fun next stepped => ih next (keeps state act next start stepped)⟩

theorem admits_of_forall (step : State → Act → Option State) (guard : State → Act → Prop)
    (guarded : ∀ state act, guard state act) (state : State) (acts : List Act) :
    Admits step guard state acts := by
  induction acts generalizing state with
  | nil => trivial
  | cons act rest ih => exact ⟨guarded state act, fun next _ => ih next⟩

/-- An invariant that survives every guarded action holds along every run whose
actions all meet the guard. -/
theorem always_of_admits (step : State → Act → Option State) (inv good : State → Prop)
    (guard : State → Act → Prop)
    (keeps : ∀ state act next, inv state → guard state act →
      step state act = some next → inv next)
    (sound : ∀ state, inv state → good state)
    (state : State) (acts : List Act) (start : inv state)
    (admitted : Admits step guard state acts) : Always step good state acts := by
  induction acts generalizing state with
  | nil => exact sound state start
  | cons act rest ih =>
      refine ⟨sound state start, fun next stepped => ?_⟩
      exact ih next (keeps state act next start admitted.1 stepped) (admitted.2 next stepped)

/-- Where an unguarded action always spoils the property, the guard is exact. -/
theorem always_iff_admits (step : State → Act → Option State) (inv good : State → Prop)
    (guard : State → Act → Prop)
    (keeps : ∀ state act next, inv state → guard state act →
      step state act = some next → inv next)
    (sound : ∀ state, inv state → good state)
    (spoils : ∀ state act next, inv state → ¬ guard state act →
      step state act = some next → ¬ good next)
    (state : State) (acts : List Act) (start : inv state)
    (executed : (run step state acts).isSome) :
    Always step good state acts ↔ Admits step guard state acts := by
  refine ⟨fun always => ?_, always_of_admits step inv good guard keeps sound state acts start⟩
  induction acts generalizing state with
  | nil => trivial
  | cons act rest ih =>
      have enabled : ∃ next, step state act = some next := by
        rw [run_cons] at executed
        cases stepped : step state act with
        | none => simp [stepped] at executed
        | some next => exact ⟨next, rfl⟩
      obtain ⟨next, stepped⟩ := enabled
      -- an unguarded first action would already end in a state the run visits
      have guarded : guard state act := by
        by_contra unguarded
        exact spoils state act next start unguarded stepped
          (always_here step good next rest (always.2 next stepped))
      refine ⟨guarded, fun other same => ?_⟩
      rw [stepped] at same
      cases same
      rw [run_cons, stepped] at executed
      exact ih next (keeps state act next start guarded stepped) executed (always.2 next stepped)

theorem run_isSome_of_total (step : State → Act → Option State)
    (total : ∀ state act, (step state act).isSome) (state : State) (acts : List Act) :
    (run step state acts).isSome := by
  induction acts generalizing state with
  | nil => rfl
  | cons act rest ih =>
      obtain ⟨next, stepped⟩ := Option.isSome_iff_exists.mp (total state act)
      rw [run_cons, stepped]
      exact ih next

theorem admits_of_acts (step : State → Act → Option State) (guard : Act → Prop) (state : State)
    (acts : List Act) (guarded : ∀ act ∈ acts, guard act) :
    Admits step (fun _ act => guard act) state acts := by
  induction acts generalizing state with
  | nil => trivial
  | cons act rest ih =>
      obtain ⟨here, later⟩ := List.forall_mem_cons.mp guarded
      exact ⟨here, fun next _ => ih next later⟩

/-- A guard on the actions alone is a condition on the list of actions. -/
theorem admits_acts_iff (step : State → Act → Option State) (guard : Act → Prop) (state : State)
    (acts : List Act) (executed : (run step state acts).isSome) :
    Admits step (fun _ act => guard act) state acts ↔ ∀ act ∈ acts, guard act := by
  induction acts generalizing state with
  | nil => simp [Admits]
  | cons act rest ih =>
      rw [run_cons] at executed
      cases stepped : step state act with
      | none => simp [stepped] at executed
      | some next =>
          rw [stepped] at executed
          simp [Admits, stepped, ih next executed]

/-! A machine that answers every act, seen as one small machine for each key. Where an act is
answered from the component of its own key and changes no other one, what a key sees of a
run is a run of the small machine over the acts of that key. -/

section Keyed
universe w x y
variable {Own : Type w} {Answer : Type x} {Key : Type y}

def final (call : State → Act → State × Answer) (state : State) (acts : List Act) : State :=
  acts.foldl (fun state act => (call state act).1) state

/-- Every act with the answer it was given, in order. -/
def answers (call : State → Act → State × Answer) : State → List Act → List (Act × Answer)
  | _, [] => []
  | state, act :: rest => (act, (call state act).2) :: answers call (call state act).1 rest

structure Separable (call : State → Act → State × Answer) (own : Own → Act → Own × Answer)
    (key : Act → Key) (view : State → Key → Own) (inv : State → Prop) : Prop where
  kept : ∀ state act, inv state → inv (call state act).1
  here : ∀ state act, inv state →
    (view (call state act).1 (key act), (call state act).2) = own (view state (key act)) act
  others : ∀ state act other, inv state → other ≠ key act →
    view (call state act).1 other = view state other

variable {call : State → Act → State × Answer} {own : Own → Act → Own × Answer}
  {key : Act → Key} {view : State → Key → Own} {inv : State → Prop}

theorem final_kept (separable : Separable call own key view inv) (state : State)
    (start : inv state) (acts : List Act) : inv (final call state acts) := by
  induction acts generalizing state with
  | nil => exact start
  | cons act rest ih => exact ih _ (separable.kept state act start)

variable [DecidableEq Key]

theorem final_view (separable : Separable call own key view inv) (state : State)
    (start : inv state) (acts : List Act) (mine : Key) :
    view (final call state acts) mine =
      final own (view state mine) (acts.filter fun act => key act = mine) := by
  induction acts generalizing state with
  | nil => rfl
  | cons act rest ih =>
      have later := ih _ (separable.kept state act start)
      by_cases same : key act = mine
      · subst same
        rw [List.filter_cons_of_pos (by simp)]
        exact later.trans (by rw [final, final, List.foldl_cons, ← separable.here state act start])
      · rw [List.filter_cons_of_neg (by simpa using same)]
        exact later.trans (by rw [separable.others state act mine start (Ne.symm same)])

theorem answers_view (separable : Separable call own key view inv) (state : State)
    (start : inv state) (acts : List Act) (mine : Key) :
    (answers call state acts).filter (fun entry => key entry.1 = mine) =
      answers own (view state mine) (acts.filter fun act => key act = mine) := by
  induction acts generalizing state with
  | nil => rfl
  | cons act rest ih =>
      have later := ih _ (separable.kept state act start)
      rw [answers]
      by_cases same : key act = mine
      · subst same
        rw [List.filter_cons_of_pos (by simp), List.filter_cons_of_pos (by simp), answers, later,
          ← separable.here state act start]
      · rw [List.filter_cons_of_neg (by simpa using same),
          List.filter_cons_of_neg (by simpa using same), later,
          separable.others state act mine start (Ne.symm same)]

end Keyed
end L2Switch.Histories
