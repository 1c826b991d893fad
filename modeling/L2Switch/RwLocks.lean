import Mathlib.Logic.Function.Basic
import L2Switch.Histories

/-!
Threads that run straight-line lock programs over a shared store. A read is
granted while nobody, the asking thread included, holds the write lock; a write
is granted while nobody holds the lock at all. One step is one instruction of
one thread, so a list of threads is a schedule. Nothing here knows what the
store is or which programs run.
-/
namespace L2Switch.RwLocks
open Histories

universe u
variable {Thread Lock Store : Type u}

inductive Prog (Lock Store : Type u) where
  | done
  | readLock (lock : Lock) (next : Prog Lock Store)
  | readUnlock (lock : Lock) (next : Prog Lock Store)
  | writeLock (lock : Lock) (next : Prog Lock Store)
  | writeUnlock (lock : Lock) (next : Prog Lock Store)
  | look (next : Store → Prog Lock Store)
  | update (change : Store → Store) (next : Prog Lock Store)

structure State (Thread Lock Store : Type u) where
  store : Store
  readers : Lock → List Thread
  writer : Lock → Option Thread
  prog : Thread → Prog Lock Store

/-- What a program does to the store when its locks are left aside. -/
def Prog.effect : Prog Lock Store → Store → Store
  | .done, store => store
  | .readLock _ next, store => next.effect store
  | .readUnlock _ next, store => next.effect store
  | .writeLock _ next, store => next.effect store
  | .writeUnlock _ next, store => next.effect store
  | .look next, store => (next store).effect store
  | .update change next, store => next.effect (change store)

def Prog.ReadOnly : Prog Lock Store → Prop
  | .done => True
  | .readLock _ next => next.ReadOnly
  | .readUnlock _ next => next.ReadOnly
  | .writeLock _ _ => False
  | .writeUnlock _ _ => False
  | .look next => ∀ store, (next store).ReadOnly
  | .update _ next => next.ReadOnly

/-- The next instruction asks for `lock`, for reading or for writing. -/
def Prog.Asks (lock : Lock) : Prog Lock Store → Prop
  | .readLock wanted _ => wanted = lock
  | .writeLock wanted _ => wanted = lock
  | _ => False

def initial (store : Store) (prog : Thread → Prog Lock Store) : State Thread Lock Store :=
  { store, readers := fun _ => [], writer := fun _ => none, prog }

section Steps
variable [DecidableEq Thread] [DecidableEq Lock]

def State.proceed (state : State Thread Lock Store) (thread : Thread)
    (next : Prog Lock Store) : State Thread Lock Store :=
  { state with prog := Function.update state.prog thread next }

def step (state : State Thread Lock Store) (thread : Thread) :
    Option (State Thread Lock Store) :=
  match state.prog thread with
  | .done => none
  | .readLock lock next =>
      if (state.writer lock).isSome then none else
        some { state.proceed thread next with
          readers := Function.update state.readers lock (thread :: state.readers lock) }
  | .readUnlock lock next =>
      some { state.proceed thread next with
        readers := Function.update state.readers lock ((state.readers lock).erase thread) }
  | .writeLock lock next =>
      if (state.writer lock).isSome || !(state.readers lock).isEmpty then none else
        some { state.proceed thread next with
          writer := Function.update state.writer lock (some thread) }
  | .writeUnlock lock next =>
      some { state.proceed thread next with
        writer := Function.update state.writer lock none }
  | .look next => some (state.proceed thread (next state.store))
  | .update change next => some { state.proceed thread next with store := change state.store }

def Unfinished (state : State Thread Lock Store) : Prop :=
  ∃ thread, state.prog thread ≠ .done

def Stuck (state : State Thread Lock Store) : Prop :=
  Unfinished state ∧ ∀ thread, step state thread = none

def NeverStuck (start : State Thread Lock Store) : Prop :=
  ∀ schedule reached, run step start schedule = some reached → ¬ Stuck reached

theorem step_asking_blocked (state : State Thread Lock Store) (thread holder : Thread)
    (lock : Lock) (asks : (state.prog thread).Asks lock)
    (held : state.writer lock = some holder) : step state thread = none := by
  unfold step
  cases waiting : state.prog thread with
  | readLock wanted next =>
      obtain rfl : wanted = lock := by simpa [waiting, Prog.Asks] using asks
      simp [held]
  | writeLock wanted next =>
      obtain rfl : wanted = lock := by simpa [waiting, Prog.Asks] using asks
      simp [held]
  | _ => simp [waiting, Prog.Asks] at asks

/-- Once every thread has finished or asks for a lock with a writer, and not all
have finished, no schedule goes on: the asking thread may be that writer. -/
theorem stuck_of_asking (state : State Thread Lock Store) (unfinished : Unfinished state)
    (waiting : ∀ thread, state.prog thread = .done ∨
      ∃ lock holder, (state.prog thread).Asks lock ∧ state.writer lock = some holder) :
    Stuck state := by
  refine ⟨unfinished, fun thread => ?_⟩
  rcases waiting thread with finished | ⟨lock, holder, asks, held⟩
  · simp [step, finished]
  · exact step_asking_blocked state thread holder lock asks held

def ReadersOnly (state : State Thread Lock Store) : Prop :=
  (∀ lock, state.writer lock = none) ∧ ∀ thread, (state.prog thread).ReadOnly

omit [DecidableEq Lock] in
theorem proceed_read_only (state : State Thread Lock Store) (thread other : Thread)
    (next : Prog Lock Store) (kept : (state.prog other).ReadOnly) (fresh : next.ReadOnly) :
    ((state.proceed thread next).prog other).ReadOnly := by
  by_cases same : other = thread
  · subst same
    simpa [State.proceed] using fresh
  · simpa [State.proceed, same] using kept

theorem step_readers_only (state next : State Thread Lock Store) (thread : Thread)
    (readers : ReadersOnly state) (stepped : step state thread = some next) :
    ReadersOnly next := by
  obtain ⟨unheld, programs⟩ := readers
  have mine := programs thread
  unfold step at stepped
  cases running : state.prog thread with
  | done => simp [running] at stepped
  | readLock lock rest =>
      simp only [running, unheld, Option.isSome_none, Bool.false_eq_true, ↓reduceIte,
        Option.some.injEq] at stepped mine
      subst next
      exact ⟨unheld, fun other => proceed_read_only state thread other rest (programs other) mine⟩
  | readUnlock lock rest =>
      simp only [running, Option.some.injEq] at stepped mine
      subst next
      exact ⟨unheld, fun other => proceed_read_only state thread other rest (programs other) mine⟩
  | writeLock lock rest => exact absurd mine (by simp [running, Prog.ReadOnly])
  | writeUnlock lock rest => exact absurd mine (by simp [running, Prog.ReadOnly])
  | look rest =>
      simp only [running, Option.some.injEq] at stepped mine
      subst next
      exact ⟨unheld, fun other =>
        proceed_read_only state thread other _ (programs other) (mine state.store)⟩
  | update change rest =>
      simp only [running, Option.some.injEq] at stepped mine
      subst next
      exact ⟨unheld, fun other => proceed_read_only state thread other rest (programs other) mine⟩

theorem readers_only_progress (state : State Thread Lock Store) (readers : ReadersOnly state)
    (thread : Thread) (unfinished : state.prog thread ≠ .done) :
    (step state thread).isSome := by
  have mine := readers.2 thread
  unfold step
  cases running : state.prog thread with
  | done => exact absurd running unfinished
  | readLock lock rest => simp [readers.1 lock]
  | readUnlock lock rest => simp
  | writeLock lock rest => simp [running, Prog.ReadOnly] at mine
  | writeUnlock lock rest => simp [running, Prog.ReadOnly] at mine
  | look rest => simp
  | update change rest => simp

theorem readers_never_stuck (start : State Thread Lock Store) (readers : ReadersOnly start) :
    NeverStuck start := by
  intro schedule reached executed stuck
  have kept := run_invariant step ReadersOnly
    (fun state thread next inv stepped => step_readers_only state next thread inv stepped)
    start reached schedule readers executed
  obtain ⟨⟨thread, unfinished⟩, blocked⟩ := stuck
  have progress := readers_only_progress reached kept thread unfinished
  simp [blocked thread] at progress

/-- What becomes of a program whose thread alone runs: the store it leaves, or the lock
that it waits for in vain, as nobody else is there to give it back. -/
def Prog.alone (thread : Thread) :
    Prog Lock Store → State Thread Lock Store → Except Lock Store
  | .done, state => .ok state.store
  | .readLock lock next, state =>
      if (state.writer lock).isSome then .error lock else
        next.alone thread { state.proceed thread next with
          readers := Function.update state.readers lock (thread :: state.readers lock) }
  | .readUnlock lock next, state =>
      next.alone thread { state.proceed thread next with
        readers := Function.update state.readers lock ((state.readers lock).erase thread) }
  | .writeLock lock next, state =>
      if (state.writer lock).isSome || !(state.readers lock).isEmpty then .error lock else
        next.alone thread { state.proceed thread next with
          writer := Function.update state.writer lock (some thread) }
  | .writeUnlock lock next, state =>
      next.alone thread { state.proceed thread next with
        writer := Function.update state.writer lock none }
  | .look next, state => (next state.store).alone thread (state.proceed thread (next state.store))
  | .update change next, state =>
      next.alone thread { state.proceed thread next with store := change state.store }

/-- The thread has finished and left this store, or it waits for this lock. -/
def ComesTo (thread : Thread) (state : State Thread Lock Store) : Except Lock Store → Prop
  | .ok store => state.prog thread = .done ∧ state.store = store
  | .error lock => (state.prog thread).Asks lock ∧ step state thread = none

theorem comesTo_step (thread : Thread) (state next : State Thread Lock Store)
    (outcome : Except Lock Store) (stepped : step state thread = some next)
    (later : ∃ moves reached,
      run step next (List.replicate moves thread) = some reached ∧ ComesTo thread reached outcome) :
    ∃ moves reached,
      run step state (List.replicate moves thread) = some reached ∧
        ComesTo thread reached outcome := by
  obtain ⟨moves, reached, executed, comes⟩ := later
  refine ⟨moves + 1, reached, ?_, comes⟩
  rw [List.replicate_succ, run_cons, stepped]
  exact executed

/-- The thread's steps, taken one after the other, come to what `alone` says. -/
theorem alone_run (thread : Thread) (prog : Prog Lock Store) (state : State Thread Lock Store)
    (running : state.prog thread = prog) :
    ∃ moves reached, run step state (List.replicate moves thread) = some reached ∧
      ComesTo thread reached (prog.alone thread state) := by
  induction prog generalizing state with
  | done => exact ⟨0, state, rfl, running, rfl⟩
  | readLock lock next ih =>
      cases held : state.writer lock with
      | some holder =>
          have waits : ComesTo thread state (.error lock : Except Lock Store) :=
            ⟨by rw [running]; rfl, by simp [step, running, held]⟩
          exact ⟨0, state, rfl, by simpa [Prog.alone, held] using waits⟩
      | none =>
          simp only [Prog.alone, held, Option.isSome_none, Bool.false_eq_true, ↓reduceIte]
          exact comesTo_step thread state _ _ (by simp [step, running, held])
            (ih _ (by simp [State.proceed]))
  | readUnlock lock next ih =>
      exact comesTo_step thread state _ _ (by simp only [step, running])
        (ih _ (by simp [State.proceed]))
  | writeLock lock next ih =>
      cases free : (state.writer lock).isSome || !(state.readers lock).isEmpty with
      | true =>
          have waits : ComesTo thread state (.error lock : Except Lock Store) :=
            ⟨by rw [running]; rfl, by simp only [step, running, free, ↓reduceIte]⟩
          exact ⟨0, state, rfl, by simpa only [Prog.alone, free, ↓reduceIte] using waits⟩
      | false =>
          simp only [Prog.alone, free, Bool.false_eq_true, ↓reduceIte]
          exact comesTo_step thread state _ _
            (by simp only [step, running, free, Bool.false_eq_true, ↓reduceIte])
            (ih _ (by simp [State.proceed]))
  | writeUnlock lock next ih =>
      exact comesTo_step thread state _ _ (by simp only [step, running])
        (ih _ (by simp [State.proceed]))
  | look next ih =>
      exact comesTo_step thread state _ _ (by simp only [step, running])
        (ih state.store _ (by simp [State.proceed]))
  | update change next ih =>
      exact comesTo_step thread state _ _ (by simp only [step, running])
        (ih _ (by simp [State.proceed]))

/-- A read section run alone gives its lock back: nothing but the thread's own
program has moved. -/
theorem solo_read_section (state : State Thread Lock Store) (thread : Thread) (lock : Lock)
    (next : Store → Prog Lock Store) (unheld : state.writer lock = none)
    (running : state.prog thread = .readLock lock (.look fun store => .readUnlock lock (next store))) :
    run step state [thread, thread, thread] =
      some (state.proceed thread (next state.store)) := by
  simp [run_cons, step, running, unheld, State.proceed, Function.update_idem]

theorem solo_write_lock (state : State Thread Lock Store) (thread : Thread) (lock : Lock)
    (next : Prog Lock Store) (unheld : state.writer lock = none)
    (unread : state.readers lock = []) (running : state.prog thread = .writeLock lock next) :
    run step state [thread] = some { state.proceed thread next with
      writer := Function.update state.writer lock (some thread) } := by
  simp [run_cons, step, running, unheld, unread]

end Steps
end L2Switch.RwLocks
